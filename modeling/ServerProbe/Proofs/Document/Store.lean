import Mathlib.Logic.Function.Basic
import ServerProbe.Document.Store
/-!
What each operation on a store of documents does to what can be looked up in it. An operation on one
document leaves every other one as it is.
-/

namespace ServerProbe.DocumentStore

variable {s : DocumentStore} {uri : String} {d : OpenDocument}

/-! ### Versions -/

/-- Below the greatest version that 32 bits can hold, the next one is one more. -/
theorem version_succ {version : Int32} (below : version ≠ .maxValue) :
    ((version + 1 : Int32) : Int) = (version : Int) + 1 := by
  have least := version.le_toInt
  have fits : version.toInt < 2147483647 := by
    have bound := version.toInt_lt
    have other : version.toInt ≠ Int32.maxValue.toInt := fun same => below (Int32.toInt_inj.mp same)
    have greatest : Int32.maxValue.toInt = 2147483647 := rfl
    omega
  have one : (1 : Int32).toInt = 1 := rfl
  rw [Int32.toInt_add, one]
  exact Int.bmod_eq_of_le (by omega) (by omega)

/-! ### Lookups -/

theorem findIn_eq_none_of_remove (uri : String) :
    ∀ entries : List (String × OpenDocument), findIn uri (entries.filter fun e => e.1 != uri) = none
  | [] => rfl
  | (k, e) :: rest => by
      by_cases same : k = uri
      · simp [same, findIn_eq_none_of_remove]
      · simp [findIn, same, findIn_eq_none_of_remove]

theorem findIn_of_remove {uri other : String} (apart : other ≠ uri) :
    ∀ entries : List (String × OpenDocument),
      findIn other (entries.filter fun e => e.1 != uri) = findIn other entries
  | [] => rfl
  | (k, e) :: rest => by
      have ih := findIn_of_remove apart rest
      by_cases same : k = uri
      · simp [findIn, same, Ne.symm apart, ih]
      · simp [findIn, same, ih]

theorem findIn_of_update (uri other : String) (d : OpenDocument) :
    ∀ entries : List (String × OpenDocument),
      findIn other (entries.map fun e => if e.1 == uri then (uri, d) else e) =
        if other = uri then (findIn uri entries).map fun _ => d else findIn other entries
  | [] => by simp [findIn]
  | (k, e) :: rest => by
      have ih := findIn_of_update uri other d rest
      simp only [beq_iff_eq] at ih
      by_cases same : k = uri
      · subst same
        by_cases apart : other = k
        · subst apart
          simp [findIn]
        · simp [findIn, apart, Ne.symm apart, ih]
      · by_cases apart : other = uri
        · subst apart
          simp [findIn, same, ih]
        · simp [findIn, same, apart, ih]

theorem findIn_append (other uri : String) (d : OpenDocument) :
    ∀ entries : List (String × OpenDocument), findIn other (entries ++ [(uri, d)]) =
      (findIn other entries).or (if other = uri then some d else none)
  | [] => by
      by_cases same : other = uri
      · simp [findIn, same]
      · simp [findIn, same, Ne.symm same]
  | (k, e) :: rest => by
      by_cases same : k = other
      · simp [findIn, same]
      · simp [findIn, same, findIn_append other uri d rest]

theorem find?_remove (s : DocumentStore) (uri : String) :
    (s.remove uri).find? = Function.update s.find? uri none := by
  funext other
  by_cases same : other = uri
  · subst same
    rw [Function.update_self]
    exact findIn_eq_none_of_remove other s.entries
  · rw [Function.update_of_ne same]
    exact findIn_of_remove same s.entries

theorem find?_update {e : OpenDocument} (held : s.find? uri = some e) (d : OpenDocument) :
    (s.update uri d).find? = Function.update s.find? uri (some d) := by
  funext other
  have found : (s.update uri d).find? other =
      if other = uri then (s.find? uri).map fun _ => d else s.find? other :=
    findIn_of_update uri other d s.entries
  rw [found]
  by_cases same : other = uri
  · subst same
    rw [if_pos rfl, held, Function.update_self, Option.map_some]
  · rw [if_neg same, Function.update_of_ne same]

theorem find?_append (absent : s.find? uri = none) (d : OpenDocument) :
    find? ⟨s.entries ++ [(uri, d)]⟩ = Function.update s.find? uri (some d) := by
  funext other
  have found : find? ⟨s.entries ++ [(uri, d)]⟩ other =
      (s.find? other).or (if other = uri then some d else none) := findIn_append other uri d s.entries
  rw [found]
  by_cases same : other = uri
  · subst same
    rw [absent, if_pos rfl, Function.update_self, Option.none_or]
  · rw [if_neg same, Function.update_of_ne same, Option.or_none]

theorem count_of_find? (held : s.find? uri = some d) : s.count uri = d.count := by
  simp only [count, held]

theorem count_of_absent (absent : s.find? uri = none) : s.count uri = 0 := by
  simp only [count, absent]

/-! ### Operations -/

theorem register_first (absent : s.find? uri = none) (language text : String) :
    s.register uri language text =
      (some ⟨language, text, 0⟩, ⟨s.entries ++ [(uri, ⟨⟨language, text, 0⟩, 1⟩)]⟩) := by
  simp only [register, absent]

theorem register_again (held : s.find? uri = some d) (language text : String) :
    s.register uri language text = (none, s.update uri { d with count := d.count + 1 }) := by
  simp only [register, held]

theorem change_eq_ok {text : String} {base : Option Int32} {version : Int32} {t : DocumentStore}
    (h : s.change uri text base = .ok (version, t)) :
    ∃ d, s.find? uri = some d ∧ version = d.document.version + 1 ∧
      t = s.update uri { d with document := { d.document with text, version } } := by
  unfold change at h
  split at h
  · cases h
  · rename_i d held
    refine ⟨d, held, ?_⟩
    dsimp only at h
    split at h
    · obtain ⟨rfl, rfl⟩ := Prod.mk.inj (Except.ok.inj h)
      exact ⟨rfl, rfl⟩
    · split at h
      · obtain ⟨rfl, rfl⟩ := Prod.mk.inj (Except.ok.inj h)
        exact ⟨rfl, rfl⟩
      · cases h

theorem close_eq_ok {last : Bool} {t : DocumentStore} (h : s.close uri = .ok (last, t)) :
    ∃ d, s.find? uri = some d ∧ (last = true ∧ d.count ≤ 1 ∧ t = s.remove uri ∨
      last = false ∧ 1 < d.count ∧ t = s.update uri { d with count := d.count - 1 }) := by
  unfold close at h
  split at h
  · cases h
  · rename_i d held
    refine ⟨d, held, ?_⟩
    split at h
    · rename_i few
      obtain ⟨rfl, rfl⟩ := Prod.mk.inj (Except.ok.inj h)
      exact .inl ⟨rfl, few, rfl⟩
    · rename_i many
      obtain ⟨rfl, rfl⟩ := Prod.mk.inj (Except.ok.inj h)
      exact .inr ⟨rfl, Nat.lt_of_not_le many, rfl⟩

end ServerProbe.DocumentStore
