import Mathlib.Data.List.Forall2
import Mathlib.Data.List.NodupEquivFin
import ServerProbe.Json.Containment
/-!
Containment of documents as a relation, which any assignment of items to items may show. The search
takes for each item the first one that will do and never goes back; all the same it decides the
relation.
-/

namespace ServerProbe.Json

/-! ### The relation -/

/-- Two objects or two arrays. -/
def bothNested : Json → Json → Bool
  | .obj _, .obj _ => true
  | .arr _, .arr _ => true
  | _, _ => false

/-- `Contained expected actual`: an object is contained by the values under its keys, an array by an
increasing choice of places for its items, and anything else is contained in what it equals. -/
inductive Contained : Json → Json → Prop
  | obj {want actual : List (String × Json)} (value : String × Json → Json)
      (found : ∀ m ∈ want, find? m.1 actual = some (value m))
      (contained : ∀ m ∈ want, Contained m.2 (value m)) : Contained (.obj want) (.obj actual)
  | arr {want actual : List Json} (place : Fin want.length → Fin actual.length)
      (increasing : StrictMono place)
      (contained : ∀ i, Contained want[i] actual[place i]) : Contained (.arr want) (.arr actual)
  | equal {expected actual : Json} (other : bothNested expected actual = false)
      (equal : actual == expected) : Contained expected actual

theorem contained_obj {want actual : List (String × Json)} : Contained (.obj want) (.obj actual) ↔
    ∀ m ∈ want, ∃ w, find? m.1 actual = some w ∧ Contained m.2 w := by
  constructor
  · intro contained m held
    cases contained with
    | obj value found contained => exact ⟨value m, found m held, contained m held⟩
    | equal other _ => cases other
  · intro each
    choose! value found contained using each
    exact .obj value found contained

theorem contained_arr {want actual : List Json} : Contained (.arr want) (.arr actual) ↔
    ∃ place : Fin want.length → Fin actual.length, StrictMono place ∧
      ∀ i, Contained want[i] actual[place i] := by
  constructor
  · intro contained
    cases contained with
    | arr place increasing contained => exact ⟨place, increasing, contained⟩
    | equal other _ => cases other
  · rintro ⟨place, increasing, contained⟩
    exact .arr place increasing contained

theorem contained_other {expected actual : Json} (other : bothNested expected actual = false) :
    Contained expected actual ↔ (actual == expected) = true := by
  refine ⟨fun contained => ?_, .equal other⟩
  cases contained with
  | obj => cases other
  | arr => cases other
  | equal _ equal => exact equal

/-! ### Increasing choices -/

section Choice

open List (SublistForall₂)

variable {α β : Type} {R : α → β → Prop} {v : α} {w : β} {want : List α} {before rest items : List β}

/-- Items of a list can be assigned to increasing places just when they go along a sublist. -/
theorem sublistForall₂_iff_place : SublistForall₂ R want items ↔
    ∃ place : Fin want.length → Fin items.length, StrictMono place ∧
      ∀ i, R want[i] items[place i] := by
  rw [List.sublistForall₂_iff]
  constructor
  · rintro ⟨chosen, along, sub⟩
    obtain ⟨place, same⟩ := List.sublist_iff_exists_fin_orderEmbedding_get_eq.mp sub
    obtain ⟨length, each⟩ := List.forall₂_iff_get.mp along
    refine ⟨fun i => place (i.cast length), fun i j before => place.strictMono before, fun i => ?_⟩
    have here := each i i.isLt (length ▸ i.isLt)
    have found := same (i.cast length)
    change R (want.get i) (items.get (place (i.cast length)))
    rwa [← found]
  · rintro ⟨place, increasing, each⟩
    refine ⟨List.ofFn fun i => items[place i], ?_, ?_⟩
    · refine List.forall₂_iff_get.mpr ⟨List.length_ofFn.symm, fun i inside _ => ?_⟩
      simpa using each ⟨i, inside⟩
    · refine List.sublist_iff_exists_fin_orderEmbedding_get_eq.mpr ⟨OrderEmbedding.ofStrictMono
        (fun i => place (i.cast List.length_ofFn)) fun i j before => increasing before, fun i => ?_⟩
      rw [List.get_ofFn]
      rfl

theorem sublistForall₂_tail (h : SublistForall₂ R (v :: want) items) :
    SublistForall₂ R want items := by
  induction items with
  | nil => cases h
  | cons u items ih =>
      cases h with
      | cons here later => exact later.cons_right
      | cons_right later => exact (ih later).cons_right

/-- An item that has been given the first place that will do could not have got a better one: if any
choice of places has room for the others, so do the places after it. -/
theorem sublistForall₂_first (skipped : ∀ u ∈ before, ¬ R v u) (taken : R v w) :
    SublistForall₂ R (v :: want) (before ++ w :: rest) ↔ SublistForall₂ R want rest := by
  refine ⟨fun chosen => ?_, fun others => ?_⟩
  · induction before with
    | nil =>
        cases chosen with
        | cons _ later => exact later
        | cons_right later => exact sublistForall₂_tail later
    | cons u before ih =>
        obtain ⟨here, later⟩ := List.forall_mem_cons.mp skipped
        cases chosen with
        | cons fits _ => exact absurd fits here
        | cons_right chosen => exact ih later chosen
  · induction before with
    | nil => exact .cons taken others
    | cons u before ih => exact (ih (List.forall_mem_cons.mp skipped).2).cons_right

end Choice

/-! ### The search -/

theorem afterFirst?_eq_none {p : Json → Bool} {items : List Json} :
    afterFirst? p items = none ↔ ∀ w ∈ items, ¬ p w = true := by
  induction items with
  | nil => simp [afterFirst?]
  | cons u items ih =>
      by_cases here : p u = true
      · simp [afterFirst?, here]
      · simp [afterFirst?, here, ih]

theorem afterFirst?_eq_some {p : Json → Bool} {items rest : List Json}
    (found : afterFirst? p items = some rest) :
    ∃ before w, items = before ++ w :: rest ∧ p w = true ∧ ∀ u ∈ before, ¬ p u = true := by
  induction items with
  | nil => cases found
  | cons u items ih =>
      unfold afterFirst? at found
      split at found
      · rename_i here
        obtain rfl := Option.some.inj found
        exact ⟨[], u, rfl, here, fun _ held => absurd held List.not_mem_nil⟩
      · rename_i other
        obtain ⟨before, w, rfl, here, skipped⟩ := ih found
        exact ⟨u :: before, w, rfl, here, List.forall_mem_cons.mpr ⟨other, skipped⟩⟩

/-- The search through an array fails only if no choice of places will do. -/
theorem itemsMismatch?_eq_none (want actual : List Json) (index : Nat) :
    itemsMismatch? index want actual = none ↔
      List.SublistForall₂ (fun v w => mismatch? v w = none) want actual := by
  induction want generalizing actual index with
  | nil =>
      rw [itemsMismatch?]
      exact iff_of_true rfl .nil
  | cons v want ih =>
      rw [itemsMismatch?]
      cases found : afterFirst? (fun w => (mismatch? v w).isNone) actual with
      | some rest =>
          obtain ⟨before, w, rfl, here, skipped⟩ := afterFirst?_eq_some found
          simp only [Option.isNone_iff_eq_none] at here skipped
          exact (ih rest _).trans (sublistForall₂_first (R := fun v w => mismatch? v w = none) skipped here).symm
      | none =>
          have nowhere := afterFirst?_eq_none.mp found
          simp only [Option.isNone_iff_eq_none] at nowhere
          refine iff_of_false (by simp) fun chosen => ?_
          obtain ⟨place, -, each⟩ := sublistForall₂_iff_place.mp chosen
          exact nowhere _ (List.getElem_mem _) (each ⟨0, Nat.succ_pos _⟩)

theorem membersMismatch?_eq_none (want actual : List (String × Json)) :
    membersMismatch? want actual = none ↔
      ∀ m ∈ want, ∃ w, find? m.1 actual = some w ∧ mismatch? m.2 w = none := by
  induction want with
  | nil => simp [membersMismatch?]
  | cons m want ih =>
      obtain ⟨key, v⟩ := m
      rw [membersMismatch?, List.forall_mem_cons, ← ih]
      cases found : find? key actual with
      | none => simp
      | some w =>
          cases inner : mismatch? v w with
          | some m => simp [inner]
          | none => simp [inner]

theorem mismatch?_of_other {expected actual : Json} (other : bothNested expected actual = false) :
    mismatch? expected actual = none ↔ (actual == expected) = true := by
  change _ ↔ actual.same expected = true
  rw [mismatch?.eq_def]
  split
  · cases other
  · cases other
  · split
    · rename_i same
      exact iff_of_true rfl same
    · rename_i differs
      exact iff_of_false (by simp) differs

theorem sizeOf_member {m : String × Json} {members : List (String × Json)} (held : m ∈ members) :
    sizeOf m.2 < sizeOf (obj members) := by
  have inside := List.sizeOf_lt_of_mem held
  obtain ⟨key, v⟩ := m
  simp only [Prod.mk.sizeOf_spec] at inside
  simp only [obj.sizeOf_spec]
  omega

theorem sizeOf_item {v : Json} {items : List Json} (held : v ∈ items) :
    sizeOf v < sizeOf (arr items) := by
  have inside := List.sizeOf_lt_of_mem held
  simp only [arr.sizeOf_spec]
  omega

/-- The search finds no mismatch exactly where the one document is contained in the other. -/
theorem contained_iff (expected actual : Json) :
    mismatch? expected actual = none ↔ Contained expected actual := by
  cases other : bothNested expected actual with
  | false => rw [mismatch?_of_other other, contained_other other]
  | true =>
      cases expected with
      | obj want =>
          cases actual with
          | obj actual =>
              rw [mismatch?, membersMismatch?_eq_none, contained_obj]
              exact forall₂_congr fun m held =>
                exists_congr fun w => and_congr_right fun _ => contained_iff m.2 w
          | _ => cases other
      | arr want =>
          cases actual with
          | arr actual =>
              rw [mismatch?, itemsMismatch?_eq_none, sublistForall₂_iff_place, contained_arr]
              exact exists_congr fun place => and_congr_right fun _ =>
                forall_congr' fun i => contained_iff want[i] actual[place i]
          | _ => cases other
      | _ => cases other
termination_by sizeOf expected
decreasing_by
  · exact sizeOf_item (List.getElem_mem _)
  · exact sizeOf_member ‹_ ∈ want›

end ServerProbe.Json
