import ServerProbe.Proofs.Json.Mismatch
/-!
The order of documents by what they contain. Contained in a document is all that is contained in what
it contains, since two choices of places make one; and two documents that contain each other are equal,
since neither has a key or an item to spare.
-/

namespace ServerProbe

/-! ### Equal numbers -/

theorem Binary64.same_iff {x y : Binary64} :
    x.same y = true ↔ x = y ∨ x.mantissa = 0 ∧ y.mantissa = 0 := by
  simp [same, isZero]

namespace Number

variable {a b c : Number}

theorem same_refl (a : Number) : a.same a = true := by
  cases a with
  | int n => exact beq_self_eq_true n
  | double x => exact Binary64.same_iff.mpr (.inl rfl)

theorem same_symm (h : a.same b = true) : b.same a = true := by
  cases a <;> cases b <;> simp only [same, beq_iff_eq, Binary64.same_iff, Bool.false_eq_true] at h ⊢
  · exact h.symm
  · exact h.imp Eq.symm And.symm

theorem same_trans (ab : a.same b = true) (bc : b.same c = true) : a.same c = true := by
  cases a <;> cases b <;> simp only [same, beq_iff_eq, Binary64.same_iff, Bool.false_eq_true] at ab
  · rwa [ab]
  · cases c with
    | int n => cases bc
    | double z =>
        simp only [same, Binary64.same_iff] at bc ⊢
        rcases ab with rfl | ⟨zero, also⟩
        · exact bc
        · rcases bc with rfl | ⟨-, third⟩
          · exact .inr ⟨zero, also⟩
          · exact .inr ⟨zero, third⟩

end Number

namespace Json

open List (Forall₂ SublistForall₂)

/-! ### Equal documents -/

/-- What holds of a document if it holds of all that it is made of. -/
theorem nested_induction {P : Json → Prop} (plain : ∀ v, bothNested v v = false → P v)
    (arr : ∀ items, (∀ v ∈ items, P v) → P (.arr items))
    (obj : ∀ members : List (String × Json), (∀ m ∈ members, P m.2) → P (.obj members)) (v : Json) : P v :=
  match v with
  | .arr items => arr items fun v _ => nested_induction plain arr obj v
  | .obj members => obj members fun m _ => nested_induction plain arr obj m.2
  | .null => plain _ rfl
  | .bool _ => plain _ rfl
  | .num _ => plain _ rfl
  | .str _ => plain _ rfl
termination_by sizeOf v
decreasing_by
  · exact sizeOf_item ‹_›
  · exact sizeOf_member ‹_›

theorem plain_refl {v : Json} (plain : bothNested v v = false) : (v == v) = true := by
  change v.same v = true
  cases v with
  | num n => exact n.same_refl
  | arr | obj => cases plain
  | _ => simp [same]

theorem plain_trans {a b c : Json} (plain : bothNested b b = false) (ab : (a == b) = true)
    (bc : (b == c) = true) : (a == c) = true := by
  change a.same b = true at ab
  change b.same c = true at bc
  change a.same c = true
  cases a <;> cases b <;> simp only [same, beq_iff_eq, Bool.false_eq_true] at ab
  · exact bc
  · rwa [ab]
  · cases c with
    | num n => exact Number.same_trans ab bc
    | _ => cases bc
  · rwa [ab]
  · cases plain
  · cases plain

/-- Equal documents are of one kind. -/
theorem bothNested_congr {a b : Json} (ab : (a == b) = true) (c : Json) :
    bothNested a c = bothNested b c := by
  change a.same b = true at ab
  cases a <;> cases b <;> simp only [same, Bool.false_eq_true] at ab <;> cases c <;> rfl

theorem bothNested_of_plain {v : Json} (plain : bothNested v v = false) (c : Json) :
    bothNested v c = false := by
  cases v with
  | arr | obj => cases plain
  | _ => rfl

theorem sameItems_iff {as bs : List Json} :
    sameItems as bs = true ↔ Forall₂ (fun a b : Json => (a == b) = true) as bs := by
  induction as generalizing bs with
  | nil => cases bs <;> simp [sameItems]
  | cons a as ih =>
      cases bs with
      | nil => simp [sameItems]
      | cons b bs =>
          rw [sameItems, Bool.and_eq_true, ih, List.forall₂_cons]
          rfl

theorem sameMembers_iff {as bs : List (String × Json)} :
    sameMembers as bs = true ↔ Forall₂ (fun m n => m.1 = n.1 ∧ (m.2 == n.2) = true) as bs := by
  induction as generalizing bs with
  | nil => cases bs <;> simp [sameMembers]
  | cons m as ih =>
      cases bs with
      | nil => simp [sameMembers]
      | cons n bs =>
          obtain ⟨k, a⟩ := m
          obtain ⟨l, b⟩ := n
          rw [sameMembers, Bool.and_eq_true, Bool.and_eq_true, beq_iff_eq, ih, List.forall₂_cons]
          rfl

theorem equal_symm {a b : Json} (ab : (a == b) = true) : (b == a) = true := by
  induction a using nested_induction generalizing b with
  | plain a plain =>
      change a.same b = true at ab
      change b.same a = true
      cases a <;> cases b <;> simp only [same, beq_iff_eq, Bool.false_eq_true] at ab ⊢
      · exact ab.symm
      · exact Number.same_symm ab
      · exact ab.symm
      · cases plain
      · cases plain
  | arr as ih =>
      cases b with
      | arr bs =>
          have along := (List.forall₂_and_left _ _).mpr ⟨ih, sameItems_iff.mp ab⟩
          exact sameItems_iff.mpr (along.imp fun a b both => both.1 both.2).flip
      | _ => cases ab
  | obj as ih =>
      cases b with
      | obj bs =>
          have along := (List.forall₂_and_left _ _).mpr ⟨ih, sameMembers_iff.mp ab⟩
          refine sameMembers_iff.mpr (along.imp fun m n both => ?_).flip
          exact ⟨both.2.1.symm, both.1 both.2.2⟩
      | _ => cases ab

/-! ### Containment -/

section Contained

variable {a b c : Json} {want actual : List Json} {members : List (String × Json)}

theorem Contained.of_obj (h : Contained (.obj members) c) : ∃ held, c = .obj held ∧
    ∀ m ∈ members, ∃ w, find? m.1 held = some w ∧ Contained m.2 w := by
  cases c with
  | obj held => exact ⟨held, rfl, contained_obj.mp h⟩
  | _ => cases (contained_other rfl).mp h

theorem Contained.of_arr (h : Contained (.arr want) c) : ∃ items, c = .arr items ∧
    SublistForall₂ Contained want items := by
  cases c with
  | arr items => exact ⟨items, rfl, sublistForall₂_iff_place.mpr (contained_arr.mp h)⟩
  | _ => cases (contained_other rfl).mp h

theorem contained_arr_iff : Contained (.arr want) (.arr actual) ↔ SublistForall₂ Contained want actual :=
  contained_arr.trans sublistForall₂_iff_place.symm

theorem Contained.trans (ab : Contained a b) (bc : Contained b c) : Contained a c := by
  induction ab generalizing c with
  | obj value found _ ih =>
      obtain ⟨held, rfl, each⟩ := bc.of_obj
      refine contained_obj.mpr fun m inside => ?_
      obtain ⟨w, there, contained⟩ := each _ (mem_of_find? (found m inside))
      exact ⟨w, there, ih m inside contained⟩
  | arr place increasing _ ih =>
      obtain ⟨items, rfl, -⟩ := bc.of_arr
      obtain ⟨further, increasing', contained⟩ := contained_arr.mp bc
      exact .arr (further ∘ place) (increasing'.comp increasing) fun i => ih i (contained (place i))
  | @equal a b other equal =>
      -- What equals a document that is no object or array contains only what equals it.
      have plain : bothNested b b = false := (bothNested_congr equal b).trans other
      have next := (contained_other (bothNested_of_plain plain c)).mp bc
      have apart : bothNested a c = false :=
        (bothNested_congr equal c).symm.trans (bothNested_of_plain plain c)
      exact .equal apart (plain_trans plain next equal)

theorem Increasing.find?_eq {m : String × Json} (increasing : Increasing members) (held : m ∈ members) :
    find? m.1 members = some m.2 := by
  obtain ⟨before, after, rfl⟩ := List.append_of_mem held
  exact find?_split increasing

theorem Contained.refl {v : Json} (proper : v.Proper) : Contained v v := by
  induction v using nested_induction with
  | plain v plain => exact .equal plain (plain_refl plain)
  | arr items ih =>
      cases proper with
      | arr each => exact .arr id strictMono_id fun i => ih _ (List.getElem_mem _) (each _ (List.getElem_mem _))
  | obj members ih =>
      cases proper with
      | obj increasing each =>
          exact .obj Prod.snd (fun m held => increasing.find?_eq held) fun m held => ih m held (each m held)

/-- Lists that are found along each other are found item by item. -/
theorem forall₂_of_both {R : Json → Json → Prop} (there : SublistForall₂ R want actual)
    (back : SublistForall₂ R actual want) : Forall₂ R want actual := by
  obtain ⟨chosen, along, sub⟩ := List.sublistForall₂_iff.mp there
  obtain ⟨chosen', along', sub'⟩ := List.sublistForall₂_iff.mp back
  have long : actual.length ≤ chosen.length := by
    rw [← along.length_eq, along'.length_eq]
    exact sub'.length_le
  obtain rfl := sub.eq_of_length_le long
  exact along

theorem mem_keys_of_find? {key : String} {v : Json} (found : find? key members = some v) :
    key ∈ keys members := List.mem_map_of_mem (mem_of_find? found)

/-- Objects that have each other's keys have the same keys in the same places. -/
theorem keys_eq_of_both {as bs : List (String × Json)} (first : Increasing as) (second : Increasing bs)
    (there : ∀ m ∈ as, ∃ w, find? m.1 bs = some w) (back : ∀ m ∈ bs, ∃ w, find? m.1 as = some w) :
    keys as = keys bs := by
  have held {one other : List (String × Json)} (each : ∀ m ∈ one, ∃ w, find? m.1 other = some w)
      (key : String) (inside : key ∈ keys one) : key ∈ keys other := by
    obtain ⟨m, here, rfl⟩ := List.mem_map.mp inside
    obtain ⟨w, found⟩ := each m here
    exact mem_keys_of_find? found
  have same : (keys as).Perm (keys bs) := (List.perm_ext_iff_of_nodup first.distinct second.distinct).mpr
    fun key => ⟨held there key, held back key⟩
  exact same.eq_of_pairwise (fun _ _ _ _ before behind => absurd behind (lt_asymm before)) first second

/-- Members with the same keys in the same places are equal if they have equal values under each key. -/
theorem sameMembers_of_found {as bs : List (String × Json)} (increasing : Increasing bs)
    (same : keys as = keys bs) (each : ∀ m ∈ as, ∀ w, find? m.1 bs = some w → (m.2 == w) = true) :
    sameMembers as bs = true := by
  have length : as.length = bs.length := by
    simpa only [keys, List.length_map] using congrArg List.length same
  refine sameMembers_iff.mpr (List.forall₂_iff_get.mpr ⟨length, fun i early late => ?_⟩)
  have key : as[i].1 = bs[i].1 := by
    have here : (keys as)[i]? = (keys bs)[i]? := by rw [same]
    simpa [keys, early, late] using here
  refine ⟨key, each _ (List.getElem_mem early) _ ?_⟩
  change find? as[i].1 bs = some bs[i].2
  rw [key]
  exact increasing.find?_eq (List.getElem_mem late)

theorem Contained.antisymm (first : a.Proper) (second : b.Proper) (ab : Contained a b)
    (ba : Contained b a) : (a == b) = true := by
  induction a using nested_induction generalizing b with
  | plain a plain => exact equal_symm ((contained_other (bothNested_of_plain plain b)).mp ab)
  | arr as ih =>
      obtain ⟨bs, rfl, there⟩ := ab.of_arr
      have back := contained_arr_iff.mp ba
      cases first with
      | arr one =>
          cases second with
          | arr other =>
              have along := forall₂_of_both there back
              have along' := forall₂_of_both back there
              refine sameItems_iff.mpr (List.forall₂_iff_get.mpr ⟨along.length_eq, fun i early late => ?_⟩)
              exact ih _ (List.getElem_mem early) (one _ (List.getElem_mem early))
                (other _ (List.getElem_mem late)) (along.get early late) (along'.get late early)
  | obj as ih =>
      obtain ⟨bs, rfl, there⟩ := ab.of_obj
      have back := contained_obj.mp ba
      cases first with
      | obj increasing one =>
          cases second with
          | obj increasing' other =>
              have same := keys_eq_of_both increasing increasing'
                (fun m held => (there m held).imp fun _ => And.left)
                (fun m held => (back m held).imp fun _ => And.left)
              refine sameMembers_of_found increasing' same fun m held w found => ?_
              have own : find? m.1 as = some m.2 := increasing.find?_eq held
              have inside := mem_of_find? found
              obtain ⟨v, found', there⟩ := there m held
              obtain ⟨u, own', back⟩ := back _ inside
              rw [← Option.some.inj (found.symm.trans found')] at there
              rw [← Option.some.inj (own.symm.trans own')] at back
              exact ih m held (one m held) (other _ inside) there back

/-- A document contains what equals it. -/
theorem contained_of_equal (proper : b.Proper) (equal : (b == a) = true) : Contained a b := by
  induction b using nested_induction generalizing a with
  | plain b plain =>
      exact .equal ((bothNested_congr equal b).symm.trans plain) equal
  | arr bs ih =>
      cases proper with
      | arr each =>
          cases a with
          | arr as =>
              have inner (b : Json) (held : b ∈ bs) : ∀ {a}, (b == a) = true → Contained a b :=
                ih b held (each b held)
              have along := (List.forall₂_and_left _ _).mpr ⟨inner, sameItems_iff.mp equal⟩
              refine contained_arr_iff.mpr (List.sublistForall₂_iff.mpr ⟨bs, ?_, List.Sublist.refl bs⟩)
              exact (along.imp fun b a both => both.1 both.2).flip
          | _ => cases equal
  | obj bs ih =>
      cases proper with
      | obj increasing each =>
          cases a with
          | obj as =>
              have along := sameMembers_iff.mp equal
              refine contained_obj.mpr fun m held => ?_
              obtain ⟨i, inside, rfl⟩ := List.mem_iff_getElem.mp held
              have within : i < bs.length := along.length_eq ▸ inside
              obtain ⟨key, value⟩ := along.get within inside
              have there : bs[i] ∈ bs := List.getElem_mem within
              exact ⟨bs[i].2, key ▸ increasing.find?_eq there, ih _ there (each _ there) value⟩
          | _ => cases equal

/-- Two documents contain each other just if they are equal. -/
theorem contained_both (first : a.Proper) (second : b.Proper) :
    Contained a b ∧ Contained b a ↔ (a == b) = true :=
  ⟨fun both => both.1.antisymm first second both.2,
    fun equal => ⟨contained_of_equal second (equal_symm equal), contained_of_equal first equal⟩⟩

end Contained

theorem contains_iff_contained {actual expected : Json} :
    actual.contains expected = true ↔ Contained expected actual :=
  contains_iff.trans (contained_iff expected actual)

/-- What a document contains, it contains with all that is contained in it. -/
theorem contains_trans {a b c : Json} (ab : a.contains b = true) (bc : b.contains c = true) :
    a.contains c = true :=
  contains_iff_contained.mpr ((contains_iff_contained.mp bc).trans (contains_iff_contained.mp ab))

end Json
end ServerProbe
