import ServerProbe.Proofs.Json.Containment
import ServerProbe.Proofs.Json.Members
/-!
What a reported mismatch says. The keys of its place lead to what was expected and, where something was
found, to what was found instead of it; all that comes before it in the order of keys is contained, and
so are the items before it, however they are assigned.
-/

namespace ServerProbe

open Json (find? keys mismatch? membersMismatch? itemsMismatch? contains)

/-! ### Places -/

/-- The document that keys lead to, each in the object under the one before. -/
def Json.follow? : List String → Json → Option Json
  | [], v => some v
  | key :: rest, v => (v.get? key).bind (follow? rest)

namespace Place

/-- What stands at a place of a document. -/
def lookup? (p : Place) (v : Json) : Option Json :=
  match p.index with
  | none => v.follow? p.keys
  | some i =>
    match v.follow? p.keys with
    | some (.arr items) => items[i]?
    | _ => none

end Place

namespace Json

theorem follow?_under {key : String} {v w : Json} (found : v.get? key = some w) (rest : List String) :
    v.follow? (key :: rest) = w.follow? rest := by
  rw [follow?, found, Option.bind_some]

theorem lookup?_under {key : String} {v w : Json} (found : v.get? key = some w) (p : Place) :
    (p.under key).lookup? v = p.lookup? w := by
  unfold Place.lookup? Place.under
  simp only [follow?_under found]

/-! ### Reports -/

/-- The expected items can be found one after the other among the actual ones. -/
abbrev FoundInOrder (want actual : List Json) : Prop :=
  List.SublistForall₂ (fun v w => w.contains v = true) want actual

/-- How a mismatch comes about: two documents differ, a key is missing, an item is not found after
those before it, or there is a mismatch under a key. Members before that key are contained. -/
inductive Reports : Json → Json → Mismatch → Prop
  | differs {expected actual : Json} (apart : actual.contains expected = false) :
      Reports expected actual ⟨.root, expected, some actual⟩
  | lacks {before after : List (String × Json)} {key : String} {v : Json}
      {actual : List (String × Json)}
      (earlier : ∀ m ∈ before, ∃ w, find? m.1 actual = some w ∧ w.contains m.2 = true)
      (missing : find? key actual = none) :
      Reports (.obj (before ++ (key, v) :: after)) (.obj actual) ⟨⟨[key], none⟩, v, none⟩
  | within {before after : List (String × Json)} {key : String} {v w : Json}
      {actual : List (String × Json)} {m : Mismatch}
      (earlier : ∀ m ∈ before, ∃ w, find? m.1 actual = some w ∧ w.contains m.2 = true)
      (found : find? key actual = some w) (inner : Reports v w m) :
      Reports (.obj (before ++ (key, v) :: after)) (.obj actual) (m.under key)
  | exhausted {want actual : List Json} {i : Nat} {v : Json} (there : want[i]? = some v)
      (earlier : FoundInOrder (want.take i) actual) (unplaced : ¬ FoundInOrder (want.take (i + 1)) actual) :
      Reports (.arr want) (.arr actual) ⟨⟨[], some i⟩, v, none⟩

theorem contains_iff {actual expected : Json} :
    actual.contains expected = true ↔ mismatch? expected actual = none := Option.isNone_iff_eq_none

theorem foundInOrder_iff {want actual : List Json} (index : Nat) :
    FoundInOrder want actual ↔ itemsMismatch? index want actual = none := by
  simp only [FoundInOrder, contains_iff, itemsMismatch?_eq_none]

theorem membersMismatch?_eq_some {want actual : List (String × Json)} {m : Mismatch}
    (found : membersMismatch? want actual = some m) :
    ∃ before key v after, want = before ++ (key, v) :: after ∧
      (∀ m ∈ before, ∃ w, find? m.1 actual = some w ∧ w.contains m.2 = true) ∧
      (find? key actual = none ∧ m = ⟨⟨[key], none⟩, v, none⟩ ∨
        ∃ w inner, find? key actual = some w ∧ mismatch? v w = some inner ∧ m = inner.under key) := by
  induction want with
  | nil => cases found
  | cons first want ih =>
      obtain ⟨key, v⟩ := first
      have none_before : ∀ m ∈ ([] : List (String × Json)),
          ∃ w, find? m.1 actual = some w ∧ w.contains m.2 = true := fun m held => by cases held
      rw [membersMismatch?] at found
      split at found
      · rename_i missing
        exact ⟨[], key, v, want, rfl, none_before, .inl ⟨missing, (Option.some.inj found).symm⟩⟩
      · rename_i w there
        split at found
        · rename_i inner differs
          exact ⟨[], key, v, want, rfl, none_before,
            .inr ⟨w, inner, there, differs, (Option.some.inj found).symm⟩⟩
        · rename_i fits
          obtain ⟨before, key', v', after, rfl, earlier, rest⟩ := ih found
          refine ⟨(key, v) :: before, key', v', after, rfl, ?_, rest⟩
          exact List.forall_mem_cons.mpr ⟨⟨w, there, contains_iff.mpr fits⟩, earlier⟩

/-- The search stops at the first expected item that is not found, and no choice of places could have
come further. -/
theorem itemsMismatch?_eq_some {want actual : List Json} {index : Nat} {m : Mismatch}
    (found : itemsMismatch? index want actual = some m) :
    ∃ i v, want[i]? = some v ∧ m = ⟨⟨[], some (index + i)⟩, v, none⟩ ∧
      itemsMismatch? index (want.take i) actual = none ∧
      itemsMismatch? index (want.take (i + 1)) actual ≠ none := by
  induction want generalizing actual index with
  | nil => cases found
  | cons v want ih =>
      rw [itemsMismatch?] at found
      split at found
      · rename_i rest taken
        obtain ⟨i, u, there, rfl, earlier, unplaced⟩ := ih found
        refine ⟨i + 1, u, there, ?_, ?_, ?_⟩
        · rw [Nat.add_assoc, Nat.add_comm 1 i]
        · rw [List.take_succ_cons, itemsMismatch?, taken]
          exact earlier
        · rw [List.take_succ_cons, itemsMismatch?, taken]
          exact unplaced
      · rename_i nowhere
        refine ⟨0, v, rfl, (Option.some.inj found).symm, rfl, ?_⟩
        rw [List.take_succ_cons, itemsMismatch?, nowhere]
        exact Option.some_ne_none _

theorem mismatch?_of_apart {expected actual : Json} (other : bothNested expected actual = false)
    {m : Mismatch} (found : mismatch? expected actual = some m) : m = ⟨.root, expected, some actual⟩ := by
  rw [mismatch?.eq_def] at found
  split at found
  · cases other
  · cases other
  · split at found
    · cases found
    · exact (Option.some.inj found).symm

/-- Every mismatch that is found comes about in one of these ways. -/
theorem reports (expected actual : Json) {m : Mismatch} (found : mismatch? expected actual = some m) :
    Reports expected actual m := by
  cases other : bothNested expected actual with
  | false =>
      obtain rfl := mismatch?_of_apart other found
      refine .differs (Bool.eq_false_iff.mpr fun fits => ?_)
      cases found.symm.trans (contains_iff.mp fits)
  | true =>
      cases expected with
      | obj want =>
          cases actual with
          | obj actual =>
              rw [mismatch?] at found
              obtain ⟨before, key, v, after, split, earlier, ⟨missing, rfl⟩ | ⟨w, inner, there, differs, rfl⟩⟩ :=
                membersMismatch?_eq_some found
              · rw [split]
                exact .lacks earlier missing
              · have report := reports v w differs
                rw [split]
                exact .within earlier there report
          | _ => cases other
      | arr want =>
          cases actual with
          | arr actual =>
              rw [mismatch?] at found
              obtain ⟨i, v, there, rfl, earlier, unplaced⟩ := itemsMismatch?_eq_some found
              rw [Nat.zero_add]
              exact .exhausted there ((foundInOrder_iff 0).mpr earlier) (mt (foundInOrder_iff 0).mp unplaced)
          | _ => cases other
      | _ => cases other
termination_by sizeOf expected
decreasing_by
  subst_vars
  exact sizeOf_member (m := (key, v)) (List.mem_append_right _ List.mem_cons_self)

/-! ### Where a report leads -/

section Split

variable {before after : List (String × Json)} {key : String} {v : Json}

theorem keys_split : keys (before ++ (key, v) :: after) = keys before ++ key :: keys after := by
  rw [keys, List.map_append]
  rfl

theorem find?_split (increasing : Increasing (before ++ (key, v) :: after)) :
    find? key (before ++ (key, v) :: after) = some v := by
  induction before with
  | nil => exact find?_cons_self key v after
  | cons m before ih =>
      obtain ⟨least, rest⟩ := List.pairwise_cons.mp increasing
      have here : key ∈ keys (before ++ (key, v) :: after) := by
        rw [keys_split]
        exact List.mem_append_right _ List.mem_cons_self
      rw [List.cons_append, find?_cons_of_ne (ne_of_lt (least key here))]
      exact ih rest

/-- In an object the members under smaller keys are those that come before. -/
theorem mem_before (increasing : Increasing (before ++ (key, v) :: after)) {m : String × Json}
    (held : m ∈ before ++ (key, v) :: after) (smaller : m.1 < key) : m ∈ before := by
  rcases List.mem_append.mp held with early | late
  · exact early
  · rw [Increasing, keys_split] at increasing
    obtain ⟨-, behind, -⟩ := List.pairwise_append.mp increasing
    obtain ⟨least, -⟩ := List.pairwise_cons.mp behind
    rcases List.mem_cons.mp late with rfl | later
    · exact absurd smaller (lt_irrefl _)
    · exact absurd smaller (lt_asymm (least m.1 (List.mem_map_of_mem later)))

end Split

/-- What the report of a mismatch says of the two documents. The way to it is the same in both, and on it
each object is contained as far as the key that is taken. -/
structure Pinpoints (expected actual : Json) (m : Mismatch) : Prop where
  leads : m.place.lookup? expected = some m.expected
  differs : ∀ x, m.actual = some x → m.place.index = none ∧ actual.follow? m.place.keys = some x ∧
    x.contains m.expected = false
  lacks : m.actual = none → m.place.index = none → ∃ above key held, m.place.keys = above ++ [key] ∧
    actual.follow? above = some (.obj held) ∧ find? key held = none
  exhausted : ∀ i, m.place.index = some i → m.actual = none ∧ ∃ want items,
    expected.follow? m.place.keys = some (.arr want) ∧ actual.follow? m.place.keys = some (.arr items) ∧
      FoundInOrder (want.take i) items ∧ ¬ FoundInOrder (want.take (i + 1)) items
  passed : ∀ above key below, m.place.keys = above ++ key :: below → ∃ want held,
    expected.follow? above = some (.obj want) ∧ actual.follow? above = some (.obj held) ∧
      ∀ e ∈ want, e.1 < key → ∃ w, find? e.1 held = some w ∧ w.contains e.2 = true

theorem Pinpoints.under {want actual : List (String × Json)} {key : String} {v w : Json} {m : Mismatch}
    (inner : Pinpoints v w m) (expected : find? key want = some v) (found : find? key actual = some w)
    (earlier : ∀ e ∈ want, e.1 < key → ∃ u, find? e.1 actual = some u ∧ u.contains e.2 = true) :
    Pinpoints (.obj want) (.obj actual) (m.under key) := by
  have expected : (obj want).get? key = some v := expected
  have found : (obj actual).get? key = some w := found
  refine ⟨(lookup?_under expected m.place).trans inner.leads, fun x given => ?_,
    fun nothing plain => ?_, fun i indexed => ?_, fun above name below path => ?_⟩
  · obtain ⟨plain, there, apart⟩ := inner.differs x given
    exact ⟨plain, (follow?_under found _).trans there, apart⟩
  · obtain ⟨above, name, held, path, there, missing⟩ := inner.lacks nothing plain
    exact ⟨key :: above, name, held, congrArg (key :: ·) path, (follow?_under found _).trans there, missing⟩
  · obtain ⟨nothing, wanted, items, leads, there, fits, unplaced⟩ := inner.exhausted i indexed
    exact ⟨nothing, wanted, items, (follow?_under expected _).trans leads,
      (follow?_under found _).trans there, fits, unplaced⟩
  · -- The first object on the way is the whole one; the others are those of the inner report.
    have path : key :: m.place.keys = above ++ name :: below := path
    cases above with
    | nil =>
        obtain ⟨rfl, -⟩ := List.cons.inj path
        exact ⟨want, actual, rfl, rfl, earlier⟩
    | cons first above =>
        obtain ⟨rfl, rest⟩ := List.cons.inj path
        obtain ⟨wanted, held, leads, there, contained⟩ := inner.passed above name below rest
        exact ⟨wanted, held, (follow?_under expected _).trans leads, (follow?_under found _).trans there,
          contained⟩

theorem Reports.pinpoints {expected actual : Json} {m : Mismatch} (report : Reports expected actual m)
    (proper : expected.Proper) : Pinpoints expected actual m := by
  induction report with
  | @differs expected actual apart =>
      refine ⟨rfl, fun x given => ?_, fun nothing => (by cases nothing), fun i indexed => (by cases indexed),
        fun above key below path => absurd path (by simp [Place.root])⟩
      obtain rfl := Option.some.inj given
      exact ⟨rfl, rfl, apart⟩
  | @lacks before after key v actual earlier missing =>
      obtain ⟨increasing, -⟩ : Increasing (before ++ (key, v) :: after) ∧ True := by
        cases proper with
        | obj increasing each => exact ⟨increasing, trivial⟩
      refine ⟨?_, fun x given => (by cases given), fun _ _ => ⟨[], key, actual, rfl, rfl, missing⟩,
        fun i indexed => (by cases indexed), fun above name below path => ?_⟩
      · change ((obj _).get? key).bind _ = _
        rw [get?, find?_split increasing]
        rfl
      · obtain ⟨rfl, path⟩ : above = [] ∧ [key] = name :: below := by
          cases above with
          | nil => exact ⟨rfl, path⟩
          | cons first above => exact absurd (congrArg List.length path) (by simp)
        obtain ⟨rfl, -⟩ := List.cons.inj path
        exact ⟨_, actual, rfl, rfl, fun e held smaller => earlier e (mem_before increasing held smaller)⟩
  | @within before after key v w actual m earlier found inner ih =>
      cases proper with
      | obj increasing each =>
          have inner := ih (each (key, v) (List.mem_append_right _ List.mem_cons_self))
          exact inner.under (find?_split increasing) found
            fun e held smaller => earlier e (mem_before increasing held smaller)
  | @exhausted want actual i v there earlier unplaced =>
      refine ⟨there, fun x given => (by cases given), fun _ plain => (by cases plain), fun j indexed => ?_,
        fun above key below path => absurd path (by simp)⟩
      obtain rfl := Option.some.inj indexed
      exact ⟨rfl, want, actual, rfl, rfl, earlier, unplaced⟩

/-- A mismatch that is reported is there, and there is none before it. -/
theorem first_difference_pinpointed {expected actual : Json} (proper : expected.Proper) {m : Mismatch}
    (found : mismatch? expected actual = some m) : Pinpoints expected actual m :=
  (reports expected actual found).pinpoints proper

/-- A document that wants two items in this order, under two keys. -/
def twoInOrder (v w : Json) : Json := .obj [("a", .obj [("b", .arr [v, w]), ("c", .null)])]

theorem twoInOrder_proper {v w : Json} (first : v.Proper) (second : w.Proper) :
    (twoInOrder v w).Proper := by
  refine .obj (List.pairwise_singleton _ _) (List.forall_mem_singleton.mpr ?_)
  refine .obj (show List.Pairwise (· < ·) ["b", "c"] by decide +kernel) ?_
  refine List.forall_mem_cons.mpr ⟨.arr ?_, List.forall_mem_singleton.mpr .null⟩
  exact List.forall_mem_cons.mpr ⟨first, List.forall_mem_singleton.mpr second⟩

theorem first_difference_pinpointed_swapped : (twoInOrder (.int 1) (.int 2)).Proper ∧
    mismatch? (twoInOrder (.int 1) (.int 2)) (twoInOrder (.int 2) (.int 1)) =
      some ⟨⟨["a", "b"], some 1⟩, .int 2, none⟩ ∧
    Pinpoints (twoInOrder (.int 1) (.int 2)) (twoInOrder (.int 2) (.int 1))
      ⟨⟨["a", "b"], some 1⟩, .int 2, none⟩ := by
  have proper : (twoInOrder (.int 1) (.int 2)).Proper := twoInOrder_proper (.num _) (.num _)
  exact ⟨proper, rfl, first_difference_pinpointed proper rfl⟩

end Json
end ServerProbe
