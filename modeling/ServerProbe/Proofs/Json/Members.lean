import Mathlib.Data.List.Induction
import Mathlib.Data.String.Basic
import ServerProbe.Json.Reader
/-!
Members of objects. A member that is set is found again and leaves the others as they were, and the
keys stay in order; so a document that is read from a text has each key of an object once.
-/

namespace ServerProbe.Json

def keys (ms : List (String × Json)) : List String := ms.map Prod.fst

@[simp] theorem keys_cons (m : String × Json) (ms : List (String × Json)) :
    keys (m :: ms) = m.1 :: keys ms := rfl

/-- The keys are in increasing order, each once. -/
def Increasing (ms : List (String × Json)) : Prop := (keys ms).Pairwise (· < ·)

/-! ### Looking up -/

@[simp] theorem find?_cons_self (key : String) (v : Json) (ms : List (String × Json)) :
    find? key ((key, v) :: ms) = some v := if_pos (beq_self_eq_true key)

theorem find?_cons_of_ne {name key : String} (other : name ≠ key) (v : Json)
    (ms : List (String × Json)) : find? key ((name, v) :: ms) = find? key ms :=
  if_neg (mt beq_iff_eq.mp other)

theorem find?_set (key other : String) (v : Json) (ms : List (String × Json)) :
    find? other (set key v ms) = if key = other then some v else find? other ms := by
  have front : ∀ ms, find? other ((key, v) :: ms) = if key = other then some v else find? other ms := by
    intro ms
    split
    · rename_i same
      rw [same, find?_cons_self]
    · rename_i apart
      exact find?_cons_of_ne apart v ms
  induction ms with
  | nil => exact front []
  | cons m ms ih =>
      obtain ⟨k, w⟩ := m
      rw [set]
      split
      · rename_i same
        obtain rfl := eq_of_beq same
        rw [front]
        split
        · rfl
        · rename_i apart
          rw [find?_cons_of_ne apart]
      · rename_i differs
        split
        · exact front _
        · by_cases here : k = other
          · have apart : key ≠ other := fun same => differs (beq_iff_eq.mpr (same.trans here.symm))
            rw [here, find?_cons_self, find?_cons_self, if_neg apart]
          · rw [find?_cons_of_ne here, find?_cons_of_ne here, ih]

theorem find?_eq_none {key : String} {ms : List (String × Json)} (absent : key ∉ keys ms) :
    find? key ms = none := by
  induction ms with
  | nil => rfl
  | cons m ms ih =>
      obtain ⟨other, later⟩ := List.ne_and_not_mem_of_not_mem_cons absent
      rw [find?_cons_of_ne (Ne.symm other), ih later]

theorem mem_of_find? {key : String} {v : Json} {ms : List (String × Json)}
    (found : find? key ms = some v) : (key, v) ∈ ms := by
  induction ms with
  | nil => cases found
  | cons m ms ih =>
      rw [find?] at found
      split at found
      · rename_i here
        obtain rfl := Option.some.inj found
        exact eq_of_beq here ▸ List.mem_cons_self
      · exact List.mem_cons_of_mem _ (ih found)

theorem ordered_concat (ms : List (String × Json)) (m : String × Json) :
    ordered (ms ++ [m]) = set m.1 m.2 (ordered ms) := by
  rw [ordered, List.foldl_append]
  rfl

/-- The last of several members with one key counts. -/
theorem find?_ordered (key : String) (ms : List (String × Json)) :
    find? key (ordered ms) = find? key ms.reverse := by
  induction ms using List.reverseRecOn with
  | nil => rfl
  | append_singleton ms m ih =>
      rw [ordered_concat, find?_set, ih, List.reverse_concat, find?]
      by_cases here : m.1 = key
      · rw [if_pos here, if_pos (beq_iff_eq.mpr here)]
      · rw [if_neg here, if_neg (mt beq_iff_eq.mp here)]

/-! ### Order -/

theorem mem_set {key : String} {v : Json} {ms : List (String × Json)} {m : String × Json}
    (held : m ∈ set key v ms) : m = (key, v) ∨ m ∈ ms := by
  induction ms with
  | nil => exact .inl (List.mem_singleton.mp held)
  | cons first ms ih =>
      obtain ⟨k, w⟩ := first
      rw [set] at held
      split at held
      · exact (List.mem_cons.mp held).imp_right (List.mem_cons_of_mem _)
      · split at held
        · exact List.mem_cons.mp held
        · rcases List.mem_cons.mp held with here | later
          · exact .inr (here ▸ List.mem_cons_self)
          · exact (ih later).imp_right (List.mem_cons_of_mem _)

theorem mem_keys_set {key other : String} {v : Json} {ms : List (String × Json)}
    (held : other ∈ keys (set key v ms)) : other = key ∨ other ∈ keys ms := by
  obtain ⟨m, inside, rfl⟩ := List.mem_map.mp held
  rcases mem_set inside with rfl | earlier
  · exact .inl rfl
  · exact .inr (List.mem_map_of_mem earlier)

theorem Increasing.set {ms : List (String × Json)} (h : Increasing ms) (key : String) (v : Json) :
    Increasing (set key v ms) := by
  induction ms with
  | nil => exact List.pairwise_singleton _ _
  | cons m ms ih =>
      obtain ⟨k, w⟩ := m
      obtain ⟨least, rest⟩ := List.pairwise_cons.mp h
      rw [Json.set]
      split
      · rename_i same
        rw [Increasing, keys_cons, eq_of_beq same]
        exact h
      · rename_i other
        split
        · rename_i before
          refine List.pairwise_cons.mpr ⟨fun later held => ?_, h⟩
          rcases List.mem_cons.mp held with rfl | held
          · exact before
          · exact String.lt_trans before (least later held)
        · rename_i behind
          refine List.pairwise_cons.mpr ⟨fun later held => ?_, ih rest⟩
          rcases mem_keys_set held with rfl | held
          · have apart : later ≠ k := mt beq_iff_eq.mpr other
            show k < later
            grind
          · exact least later held

theorem ordered_increasing (ms : List (String × Json)) : Increasing (ordered ms) := by
  induction ms using List.reverseRecOn with
  | nil => exact List.Pairwise.nil
  | append_singleton ms m ih =>
      rw [ordered_concat]
      exact ih.set m.1 m.2

theorem Increasing.distinct {ms : List (String × Json)} (h : Increasing ms) : (keys ms).Nodup :=
  List.Pairwise.imp (fun before => ne_of_lt before) h

/-! ### Whole documents -/

/-- Every object in a document has its keys in increasing order, each once. -/
inductive Proper : Json → Prop
  | null : Proper .null
  | bool (value : Bool) : Proper (.bool value)
  | num (value : Number) : Proper (.num value)
  | str (value : String) : Proper (.str value)
  | arr {items : List Json} (each : ∀ v ∈ items, Proper v) : Proper (.arr items)
  | obj {members : List (String × Json)} (increasing : Increasing members)
      (each : ∀ m ∈ members, Proper m.2) : Proper (.obj members)

theorem Proper.get? {v w : Json} {key : String} (h : v.Proper) (found : v.get? key = some w) :
    w.Proper := by
  cases h with
  | obj increasing each => exact each _ (mem_of_find? found)
  | _ => cases found

theorem mem_ordered {ms : List (String × Json)} {m : String × Json} (held : m ∈ ordered ms) :
    m ∈ ms := by
  induction ms using List.reverseRecOn with
  | nil => exact held
  | append_singleton ms last ih =>
      rw [ordered_concat] at held
      rcases mem_set held with rfl | earlier
      · exact List.mem_append_right _ List.mem_cons_self
      · exact List.mem_append_left _ (ih earlier)

theorem ofMembers_proper {ms : List (String × Json)} (each : ∀ m ∈ ms, Proper m.2) :
    (ofMembers ms).Proper :=
  .obj (ordered_increasing ms) fun m held => each m (mem_ordered held)

namespace Reader

/-- What has been read where something else was read and made into it. -/
theorem made {α β : Type} {found : Option α} {make : α → β × List Char} {b : β} {rest : List Char}
    (read : found.map make = some (b, rest)) : ∃ x, found = some x ∧ (make x).1 = b := by
  obtain ⟨x, there, same⟩ := Option.map_eq_some_iff.mp read
  exact ⟨x, there, congrArg Prod.fst same⟩

theorem number_proper {negative : Bool} {cs rest : List Char} {v : Json}
    (read : number negative cs = some (v, rest)) : v.Proper := by
  simp only [number, Option.bind_eq_bind, Option.bind_eq_some_iff] at read
  obtain ⟨_, -, _, -, _, -, read⟩ := read
  split at read
  · obtain ⟨rfl, -⟩ := Prod.mk.inj (Option.some.inj read)
    exact .num _
  · obtain ⟨_, -, rfl⟩ := made read
    exact .num _

/-- What is read with some fuel is proper. -/
structure Reads (fuel : Nat) : Prop where
  value : ∀ depth cs v rest, value depth fuel cs = some (v, rest) → v.Proper
  items : ∀ depth cs vs rest, items depth fuel cs = some (vs, rest) → ∀ v ∈ vs, Proper v
  members : ∀ depth cs ms rest, members depth fuel cs = some (ms, rest) → ∀ m ∈ ms, Proper m.2

theorem Reads.value_succ {fuel depth : Nat} {cs rest : List Char} {v : Json} (h : Reads fuel)
    (read : Reader.value depth (fuel + 1) cs = some (v, rest)) : v.Proper := by
  rw [Reader.value] at read
  split at read
  · obtain ⟨_, -, rfl⟩ := made read
    exact .null
  · obtain ⟨_, -, rfl⟩ := made read
    exact .bool _
  · obtain ⟨_, -, rfl⟩ := made read
    exact .bool _
  · obtain ⟨_, -, rfl⟩ := made read
    exact .str _
  · cases depth with
    | zero => cases read
    | succ depth =>
        dsimp only at read
        split at read
        · obtain ⟨rfl, -⟩ := Prod.mk.inj (Option.some.inj read)
          exact .arr fun v held => absurd held List.not_mem_nil
        · obtain ⟨⟨vs, _⟩, inner, rfl⟩ := made read
          exact .arr (h.items _ _ _ _ inner)
  · cases depth with
    | zero => cases read
    | succ depth =>
        dsimp only at read
        split at read
        · obtain ⟨rfl, -⟩ := Prod.mk.inj (Option.some.inj read)
          exact .obj List.Pairwise.nil fun m held => absurd held List.not_mem_nil
        · obtain ⟨⟨ms, _⟩, inner, rfl⟩ := made read
          exact ofMembers_proper (h.members _ _ _ _ inner)
  · exact number_proper read
  · exact number_proper read

theorem Reads.items_succ {fuel depth : Nat} {cs rest : List Char} {vs : List Json} (h : Reads fuel)
    (read : Reader.items depth (fuel + 1) cs = some (vs, rest)) : ∀ v ∈ vs, Proper v := by
  rw [Reader.items] at read
  split at read
  · cases read
  · rename_i v after first
    have proper := h.value _ _ _ _ first
    split at read
    · obtain ⟨rfl, -⟩ := Prod.mk.inj (Option.some.inj read)
      exact fun w held => List.mem_singleton.mp held ▸ proper
    · obtain ⟨⟨later, _⟩, inner, rfl⟩ := made read
      exact List.forall_mem_cons.mpr ⟨proper, h.items _ _ _ _ inner⟩
    · cases read

theorem Reads.members_succ {fuel depth : Nat} {cs rest : List Char} {ms : List (String × Json)}
    (h : Reads fuel) (read : Reader.members depth (fuel + 1) cs = some (ms, rest)) :
    ∀ m ∈ ms, Proper m.2 := by
  rw [Reader.members] at read
  split at read
  · split at read
    · cases read
    · split at read
      · split at read
        · cases read
        · rename_i v after first
          have proper := h.value _ _ _ _ first
          split at read
          · obtain ⟨rfl, -⟩ := Prod.mk.inj (Option.some.inj read)
            exact fun m held => List.mem_singleton.mp held ▸ proper
          · obtain ⟨⟨later, _⟩, inner, rfl⟩ := made read
            exact List.forall_mem_cons.mpr ⟨proper, h.members _ _ _ _ inner⟩
          · cases read
      · cases read
  · cases read

theorem reads (fuel : Nat) : Reads fuel := by
  induction fuel with
  | zero => exact ⟨fun _ _ _ _ read => (by cases read), fun _ _ _ _ read => (by cases read),
      fun _ _ _ _ read => (by cases read)⟩
  | succ fuel ih =>
      exact ⟨fun _ _ _ _ => ih.value_succ, fun _ _ _ _ => ih.items_succ,
        fun _ _ _ _ => ih.members_succ⟩

end Reader

/-- Every document that is read from a text is proper. -/
theorem parse?_proper {text : String} {v : Json} (read : parse? text = some v) : v.Proper := by
  unfold parse? at read
  dsimp only at read
  split at read
  · rename_i w rest held
    split at read
    · obtain rfl := Option.some.inj read
      exact (Reader.reads _).value _ _ _ _ held
    · cases read
  · cases read

end ServerProbe.Json
