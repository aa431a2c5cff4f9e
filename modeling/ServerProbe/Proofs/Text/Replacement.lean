import Mathlib.Data.List.Infix
import ServerProbe.Text.Blank
/-!
Texts in which names are replaced by what they stand for. Where every name begins with a mark that is
nowhere else in the names, and what they stand for has no mark and begins with a character that is in no
name, the names can be replaced one after the other as well as all at once, and none is left.
-/

namespace ServerProbe.Text

/-- From left to right, each occurrence of a name is replaced by what it stands for, and nothing else is
changed. -/
inductive Replaced (names : List (List Char × List Char)) : List Char → List Char → Prop
  | nil : Replaced names [] []
  | name {old new rest out : List Char} (listed : (old, new) ∈ names) (later : Replaced names rest out) :
      Replaced names (old ++ rest) (new ++ out)
  | other {c : Char} {rest out : List Char} (unnamed : ∀ n ∈ names, ¬ n.1 <+: c :: rest)
      (later : Replaced names rest out) : Replaced names (c :: rest) (c :: out)

/-! ### The search -/

theorem hasPart_iff {part cs : List Char} : hasPart part cs = true ↔ part <:+: cs := by
  induction cs with
  | nil => simp [hasPart]
  | cons c cs ih => simp [hasPart, ih, List.infix_cons_iff]

theorem replaceFrom_skip (old new : List Char) (skip : Nat) (cs : List Char) :
    replaceFrom old new skip cs = replaceFrom old new 0 (cs.drop skip) := by
  induction skip generalizing cs with
  | zero => rfl
  | succ skip ih =>
      cases cs with
      | nil => rfl
      | cons c cs => exact ih cs

theorem replaceFrom_replaced {old : List Char} (named : old ≠ []) (new cs : List Char) :
    Replaced [(old, new)] cs (replaceFrom old new 0 cs) := by
  induction length : cs.length using Nat.strong_induction_on generalizing cs with
  | _ n ih =>
      subst length
      cases cs with
      | nil => exact .nil
      | cons c cs =>
          rw [replaceFrom]
          split
          · rename_i here
            obtain ⟨rest, split⟩ := List.isPrefixOf_iff_prefix.mp here
            have shorter : rest.length < (c :: cs).length := by
              have some := List.length_pos_iff.mpr named
              rw [← split, List.length_append]
              omega
            have after : cs.drop (old.length - 1) = rest := by
              obtain ⟨d, tail, rfl⟩ := List.exists_cons_of_ne_nil named
              obtain ⟨-, same⟩ := List.cons.inj split
              rw [← same]
              exact List.drop_left
            rw [replaceFrom_skip, after, ← split]
            exact .name List.mem_cons_self (ih _ shorter rest rfl)
          · rename_i other
            refine .other (List.forall_mem_singleton.mpr ?_) (ih _ (Nat.lt_succ_self _) cs rfl)
            exact mt List.isPrefixOf_iff_prefix.mpr other

/-! ### What has been replaced -/

section Names

variable {names : List (List Char × List Char)} {c : Char} {s rest out : List Char}

theorem Replaced.cons_cases (h : Replaced names (c :: s) out) :
    (∃ old new rest later, (old, new) ∈ names ∧ c :: s = old ++ rest ∧ out = new ++ later ∧
      Replaced names rest later) ∨
      (∀ n ∈ names, ¬ n.1 <+: c :: s) ∧ ∃ later, out = c :: later ∧ Replaced names s later := by
  generalize whole : c :: s = text at h
  cases h with
  | nil => cases whole
  | name listed later => exact .inl ⟨_, _, _, _, listed, rfl, rfl, later⟩
  | other unnamed later =>
      obtain ⟨rfl, rfl⟩ := List.cons.inj whole
      exact .inr ⟨unnamed, _, rfl, later⟩

/-- A text without names stays as it is. -/
theorem replaced_self (unnamed : ∀ n ∈ names, ¬ n.1 <:+: s) : Replaced names s s := by
  induction s with
  | nil => exact .nil
  | cons c s ih =>
      refine .other (fun n held => mt List.IsPrefix.isInfix (unnamed n held)) (ih fun n held inside => ?_)
      exact unnamed n held (List.infix_cons inside)

/-- Names that begin with a mark and have it nowhere else. What they stand for has no mark, and begins
with a character that is in none of the names. -/
structure Marked (mark : Char) (names : List (List Char × List Char)) : Prop where
  headed : ∀ n ∈ names, ∃ tail, n.1 = mark :: tail ∧ mark ∉ tail
  unmarked : ∀ n ∈ names, mark ∉ n.2
  foreign : ∀ n ∈ names, ∃ d rest, n.2 = d :: rest ∧ ∀ other ∈ names, d ∉ other.1

variable {mark : Char}

theorem Marked.mono {some : List (List Char × List Char)} (h : Marked mark names) (sub : some ⊆ names) :
    Marked mark some := by
  refine ⟨fun n held => h.headed n (sub held), fun n held => h.unmarked n (sub held), fun n held => ?_⟩
  obtain ⟨d, rest, same, foreign⟩ := h.foreign n (sub held)
  exact ⟨d, rest, same, fun other held => foreign other (sub held)⟩

theorem Marked.not_nil (h : Marked mark names) {n : List Char × List Char} (held : n ∈ names) :
    n.1 ≠ [] := by
  obtain ⟨tail, same, -⟩ := h.headed n held
  rw [same]
  exact List.cons_ne_nil _ _

/-- What has no mark is copied. -/
theorem Replaced.copies (marked : Marked mark names) {p : List Char} (plain : mark ∉ p)
    (h : Replaced names (p ++ rest) out) : ∃ later, out = p ++ later ∧ Replaced names rest later := by
  induction p generalizing out with
  | nil => exact ⟨out, rfl, h⟩
  | cons c p ih =>
      obtain ⟨first, others⟩ := List.ne_and_not_mem_of_not_mem_cons plain
      rcases h.cons_cases with ⟨old, new, after, later, listed, split, -, -⟩ | ⟨-, later, rfl, copied⟩
      · obtain ⟨tail, same, -⟩ := marked.headed _ listed
        rw [show old = mark :: tail from same] at split
        exact absurd (List.cons.inj split).1.symm first
      · obtain ⟨last, rfl, rest⟩ := ih others copied
        exact ⟨last, rfl, rest⟩

/-- What comes out without a character that begins what a name stands for has been copied. -/
theorem Replaced.copied {p : List Char}
    (foreign : ∀ n ∈ names, ∃ d rest, n.2 = d :: rest ∧ d ∉ p) (h : Replaced names s (p ++ out)) :
    ∃ before, s = p ++ before ∧ Replaced names before out := by
  induction p generalizing s with
  | nil => exact ⟨s, rfl, h⟩
  | cons c p ih =>
      generalize whole : c :: p ++ out = text at h
      cases h with
      | nil => cases whole
      | @name old new _ _ listed later =>
          obtain ⟨d, rest, same, apart⟩ := foreign _ listed
          rw [show new = d :: rest from same] at whole
          exact absurd ((List.cons.inj whole).1 ▸ List.mem_cons_self) apart
      | other unnamed later =>
          obtain ⟨rfl, rfl⟩ := List.cons.inj whole
          have others : ∀ n ∈ names, ∃ d rest, n.2 = d :: rest ∧ d ∉ p := fun n held => by
            obtain ⟨d, rest, same, apart⟩ := foreign n held
            exact ⟨d, rest, same, fun inside => apart (List.mem_cons_of_mem _ inside)⟩
          obtain ⟨before, rfl, rest⟩ := ih others later
          exact ⟨before, rfl, rest⟩

theorem Marked.foreign_tail (marked : Marked mark names) {n : List Char × List Char} (held : n ∈ names)
    {tail : List Char} (same : n.1 = mark :: tail) :
    ∀ other ∈ names, ∃ d rest, other.2 = d :: rest ∧ d ∉ tail := by
  intro other listed
  obtain ⟨d, rest, begins, foreign⟩ := marked.foreign other listed
  refine ⟨d, rest, begins, fun inside => foreign n held ?_⟩
  rw [same]
  exact List.mem_cons_of_mem _ inside

theorem infix_of_append {p tail : List Char} (plain : mark ∉ p) (inside : mark :: tail <:+: p ++ out) :
    mark :: tail <:+: out := by
  induction p with
  | nil => exact inside
  | cons c p ih =>
      obtain ⟨first, others⟩ := List.ne_and_not_mem_of_not_mem_cons plain
      rcases List.infix_cons_iff.mp inside with ⟨after, here⟩ | there
      · exact absurd (List.cons.inj here).1 first
      · exact ih others there

/-- No name is left. -/
theorem Replaced.nameless (marked : Marked mark names) (h : Replaced names s out) :
    ∀ n ∈ names, ¬ n.1 <:+: out := by
  induction h with
  | nil => exact fun n held inside => marked.not_nil held (List.infix_nil.mp inside)
  | @name old new rest out listed later ih =>
      intro n held inside
      obtain ⟨tail, same, -⟩ := marked.headed n held
      rw [same] at inside
      have there := infix_of_append (marked.unmarked _ listed) inside
      exact ih n held (same ▸ there)
  | @other c rest out unnamed later ih =>
      intro n held inside
      obtain ⟨tail, same, -⟩ := marked.headed n held
      rcases List.infix_cons_iff.mp inside with ⟨after, here⟩ | there
      · rw [same] at here
        obtain ⟨rfl, rfl⟩ := List.cons.inj here
        obtain ⟨before, rfl, -⟩ := later.copied (marked.foreign_tail held same)
        exact unnamed n held ⟨before, by rw [same]; rfl⟩
      · exact ih n held there

/-- Two names can be replaced one after the other. -/
theorem Replaced.andThen {a b : List Char × List Char} {mid : List Char} (marked : Marked mark [b, a])
    (first : Replaced [a] s mid) (second : Replaced [b] mid out) : Replaced [b, a] s out := by
  have one : Marked mark [a] := marked.mono (by simp)
  have two : Marked mark [b] := marked.mono (by simp)
  induction length : s.length using Nat.strong_induction_on generalizing s mid out with
  | _ n ih =>
      subst length
      cases first with
      | nil =>
          generalize none : ([] : List Char) = text at second
          cases second with
          | nil => exact .nil
          | name listed later =>
              exact absurd (List.append_eq_nil_iff.mp none.symm).1 (two.not_nil listed)
          | other unnamed later => cases none
      | @name old new rest mid listed later =>
          obtain ⟨out, rfl, after⟩ := second.copies two (one.unmarked _ listed)
          have shorter : rest.length < (old ++ rest).length := by
            have some : 0 < old.length := List.length_pos_iff.mpr (one.not_nil listed)
            rw [List.length_append]
            omega
          exact .name (List.mem_cons_of_mem _ listed) (ih _ shorter later after rfl)
      | @other c rest mid unnamed later =>
          rcases second.cons_cases with ⟨old, new, more, out, listed, split, rfl, after⟩ | ⟨alone, out, rfl, after⟩
          · -- The name has been copied as it stands, so it was there before.
            obtain ⟨tail, same, -⟩ := two.headed _ listed
            obtain rfl : old = mark :: tail := same
            obtain ⟨rfl, rfl⟩ := List.cons.inj split
            have held : (c :: tail, new) ∈ [b, a] := List.mem_singleton.mp listed ▸ List.mem_cons_self
            have foreign := marked.foreign_tail held rfl
            obtain ⟨before, rfl, rest⟩ :=
              later.copied fun n listed => foreign n (List.mem_cons_of_mem _ listed)
            have shorter : before.length < (c :: (tail ++ before)).length := by
              rw [List.length_cons, List.length_append]
              omega
            exact .name held (ih _ shorter rest after rfl)
          · refine .other (fun n listed => ?_) (ih _ (Nat.lt_succ_self _) later after rfl)
            rcases List.mem_cons.mp listed with rfl | listed
            · -- If the second name were there, it would have been copied.
              rintro ⟨more, here⟩
              obtain ⟨tail, same, plain⟩ := marked.headed n listed
              rw [same] at here
              obtain ⟨rfl, rfl⟩ := List.cons.inj here
              obtain ⟨left, rfl, -⟩ := later.copies one plain
              exact alone n List.mem_cons_self ⟨left, by rw [same]; rfl⟩
            · exact unnamed n listed

end Names
end ServerProbe.Text
