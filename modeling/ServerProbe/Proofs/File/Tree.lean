import ServerProbe.File.Tree
import ServerProbe.File.Uri
/-!
What rewriting a file that is there does to a tree: its contents are other ones, and every path leads
where it led before.
-/

namespace ServerProbe.FileTree

variable {t u v : FileTree} {l m : Location} {path : String}

theorem find?_put (t : FileTree) (l : Location) (contents : Option Bytes) (m : Location) :
    (t.put l contents).find? m = if m = l then some contents else t.find? m := by
  by_cases same : m = l
  · subst same
    simp [find?, put]
  · have others : ∀ entries : List (Location × Option Bytes),
        (entries.filter fun e => e.1 != l).find? (fun e => e.1 == m) =
          entries.find? fun e => e.1 == m := by
      intro entries
      induction entries with
      | nil => rfl
      | cons e rest ih =>
          by_cases here : e.1 = l
          · simp [here, Ne.symm same, ih]
          · simp [here, List.find?_cons, ih]
    simp only [find?, put, List.find?_cons, beq_eq_false_iff_ne.mpr (Ne.symm same), others, same,
      if_false]

/-- Trees with the same directories and the same files, whatever is in them. -/
structure Alike (t u : FileTree) : Prop where
  current : u.current = t.current
  kind : ∀ l, (u.find? l).map Option.isSome = (t.find? l).map Option.isSome

namespace Alike

theorem refl (t : FileTree) : Alike t t := ⟨rfl, fun _ => rfl⟩

theorem trans (first : Alike t u) (rest : Alike u v) : Alike t v :=
  ⟨rest.current.trans first.current, fun l => (rest.kind l).trans (first.kind l)⟩

theorem put {old : Bytes} (held : t.find? l = some (some old)) (bytes : Bytes) :
    Alike t (t.put l (some bytes)) := by
  refine ⟨rfl, fun m => ?_⟩
  rw [find?_put]
  split
  · rename_i same
    rw [same, held]
    rfl
  · rfl

theorem walk (h : Alike t u) (here : Location) (parts : List String) :
    u.walk here parts = t.walk here parts := by
  induction parts generalizing here with
  | nil => rfl
  | cons part rest ih =>
      have kind := h.kind here
      unfold FileTree.walk
      rcases before : t.find? here with _ | _ | bytes <;>
        rcases after : u.find? here with _ | _ | bytes' <;>
        simp only [before, after, Option.map_none, Option.map_some, Option.isSome_none,
          Option.isSome_some, reduceCtorEq, Option.some.injEq, Bool.false_eq_true] at kind
      · rfl
      · simp only [ih]
      · rfl

theorem locate (h : Alike t u) (path : String) : u.locate path = t.locate path := by
  unfold FileTree.locate
  simp only [h.walk, h.current]

end Alike

/-! ### Files that are there -/

/-- The text of the file at a location. -/
def textAt? (t : FileTree) (l : Location) : Option String :=
  (t.find? l).join.bind Utf8.decode?

theorem readText_eq_ok {text : String} (h : t.readText path = .ok text) :
    ∃ l bytes, t.locate path = .ok l ∧ t.find? l = some (some bytes) ∧
      Utf8.decode? bytes = some text := by
  unfold readText read at h
  cases located : t.locate path with
  | error fault =>
      rw [located] at h
      cases h
  | ok l =>
      rw [located] at h
      rcases found : t.find? l with _ | _ | bytes
      · simp only [bind, Except.bind, found] at h
        cases h
      · simp only [bind, Except.bind, found] at h
        cases h
      · refine ⟨l, bytes, rfl, found, ?_⟩
        cases decoded : Utf8.decode? bytes with
        | none =>
            simp only [bind, Except.bind, found, pure, Except.pure, decoded] at h
            cases h
        | some text' =>
            simp only [bind, Except.bind, found, pure, Except.pure, decoded] at h
            rw [Except.ok.inj h]

theorem withoutLastSlashes_of_file (file : namesDirectory path = false) :
    withoutLastSlashes path = path := by
  unfold withoutLastSlashes
  split
  · rename_i empty
    exact (String.toList_eq_nil_iff.mp empty).symm
  · rename_i c cs parts
    have ends : cs.reverse.dropWhile (· == '/') = cs.reverse := by
      cases back : cs.reverse with
      | nil => rfl
      | cons last others =>
          have front : cs = others.reverse ++ [last] := by
            rw [← List.reverse_cons, ← back, List.reverse_reverse]
          have ending : path.toList.getLast? = some last := by
            rw [parts, front, ← List.cons_append, List.getLast?_concat]
          have solid : last ≠ '/' := by
            intro same
            rw [namesDirectory, ending, same, beq_self_eq_true] at file
            cases file
          rw [List.dropWhile_cons_of_neg (by simpa using solid)]
    rw [ends, List.reverse_reverse, ← parts, String.ofList_toList]

theorem write_eq_ok {bytes : Bytes} (h : t.write path bytes = .ok u) :
    ∃ l, t.locate path = .ok l ∧ u = t.put l (some bytes) := by
  unfold write at h
  cases located : t.locate (withoutLastSlashes path) with
  | error fault => simp [located, bind, Except.bind] at h
  | ok l =>
      cases file : namesDirectory path with
      | true =>
          simp only [located, file, bind, Except.bind, Bool.true_or, if_true] at h
          split at h <;> cases h
      | false =>
          rw [withoutLastSlashes_of_file file] at located
          refine ⟨l, located, ?_⟩
          rw [withoutLastSlashes_of_file file] at h
          simp only [located, file, bind, Except.bind, Bool.false_or] at h
          split at h
          · cases h
          · split at h
            · cases h
            · exact (Except.ok.inj h).symm

theorem Alike.file {old : Bytes} (h : Alike t u) (held : t.find? l = some (some old)) :
    ∃ now, u.find? l = some (some now) := by
  have kind := h.kind l
  rw [held] at kind
  rcases found : u.find? l with _ | _ | now
  · rw [found] at kind
    cases kind
  · rw [found] at kind
    cases kind
  · exact ⟨now, rfl⟩

/-- The files that paths lead to are there. -/
def Holds (t : FileTree) (path : String) : Prop :=
  ∃ l old, t.locate path = .ok l ∧ t.find? l = some (some old)

/-- Texts are written, each to its path, one after the other. -/
inductive Written : FileTree → List (String × String) → FileTree → Prop
  | nil {t : FileTree} : Written t [] t
  | cons {t u v : FileTree} {path text : String} {rest : List (String × String)}
      (wrote : t.write path (Utf8.encode text) = .ok u) (later : Written u rest v) :
      Written t ((path, text) :: rest) v

namespace Written

variable {base : FileTree} {texts early late : List (String × String)}

theorem split (h : Written t (early ++ late) v) : ∃ u, Written t early u ∧ Written u late v := by
  induction early generalizing t with
  | nil => exact ⟨t, .nil, h⟩
  | cons first early ih =>
      cases h with
      | cons wrote later =>
          obtain ⟨u, before, after⟩ := ih later
          exact ⟨u, .cons wrote before, after⟩

theorem alike (h : Written t texts v) (same : Alike base t) (holds : ∀ p ∈ texts, base.Holds p.1) :
    Alike base v := by
  induction h with
  | nil => exact same
  | @cons t u v path text rest wrote later ih =>
      refine ih ?_ fun p held => holds p (List.mem_cons_of_mem _ held)
      obtain ⟨l, located, rfl⟩ := write_eq_ok wrote
      obtain ⟨m, old, there, held⟩ := holds _ List.mem_cons_self
      rw [same.locate] at located
      obtain rfl := Except.ok.inj (located.symm.trans there)
      obtain ⟨now, found⟩ := same.file held
      exact same.trans (.put found _)

/-- What no path leads to stays as it is. -/
theorem elsewhere (h : Written t texts v) (same : Alike base t)
    (holds : ∀ p ∈ texts, base.Holds p.1) (apart : ∀ p ∈ texts, base.locate p.1 ≠ .ok m) :
    v.find? m = t.find? m := by
  induction h with
  | nil => rfl
  | @cons t u v path text rest wrote later ih =>
      have one : Written t [(path, text)] u := .cons wrote .nil
      have first : Alike base u := one.alike same fun p held => by
        rw [List.mem_singleton.mp held]
        exact holds _ List.mem_cons_self
      have others := ih first (fun p held => holds p (List.mem_cons_of_mem _ held))
        fun p held => apart p (List.mem_cons_of_mem _ held)
      obtain ⟨l, located, rfl⟩ := write_eq_ok wrote
      rw [others, find?_put, if_neg]
      rintro rfl
      rw [same.locate] at located
      exact apart _ List.mem_cons_self located

/-- The last text that is written to a file is what is in it. -/
theorem last {path text : String} (h : Written t (early ++ (path, text) :: late) v)
    (holds : ∀ p ∈ early ++ (path, text) :: late, t.Holds p.1) (leads : t.locate path = .ok m)
    (apart : ∀ p ∈ late, t.locate p.1 ≠ .ok m) : v.find? m = some (some (Utf8.encode text)) := by
  obtain ⟨u, before, after⟩ := h.split
  have same : Alike t u := before.alike (.refl t) fun p held => holds p (List.mem_append_left _ held)
  cases after with
  | @cons _ w _ _ _ _ wrote later =>
      have one : Written u [(path, text)] w := .cons wrote .nil
      have here : Alike t w := one.alike same fun p held => by
        rw [List.mem_singleton.mp held]
        exact holds _ (List.mem_append_right _ List.mem_cons_self)
      have rest := later.elsewhere here
        (fun p held => holds p (List.mem_append_right _ (List.mem_cons_of_mem _ held))) apart
      obtain ⟨l, located, rfl⟩ := write_eq_ok wrote
      rw [same.locate, leads] at located
      obtain rfl := Except.ok.inj located
      rw [rest, find?_put, if_pos rfl]

end Written
end ServerProbe.FileTree
