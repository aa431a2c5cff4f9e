import Mathlib.Data.List.TakeWhile
import ServerProbe.Framing.Decoder
import ServerProbe.Proofs.Framing.Header
/-!
The search for the next header's name. What has been searched is kept only as far as a name may begin
in it, and a name does not reach over the end of a line.
-/

namespace ServerProbe.Framing

/-! ### The search -/

theorem marker_length : marker.length = 14 := by decide

theorem beginsWithMarker_length {bs : Bytes} (h : beginsWithMarker bs = true) : 14 ≤ bs.length := by
  have same := congrArg List.length (eq_of_beq h)
  rw [List.length_map, List.length_take, marker_length] at same
  omega

theorem beginsWithMarker_append {bs : Bytes} (long : 14 ≤ bs.length) (more : Bytes) :
    beginsWithMarker (bs ++ more) = beginsWithMarker bs := by
  rw [beginsWithMarker, beginsWithMarker, List.take_append_of_le_length (marker_length ▸ long)]

theorem fromMarker?_suffix {bs rest : Bytes} (h : fromMarker? bs = some rest) :
    rest <:+ bs ∧ 14 ≤ rest.length := by
  induction bs with
  | nil => cases h
  | cons b bs ih =>
      unfold fromMarker? at h
      split at h
      · rename_i begins
        obtain rfl := Option.some.inj h
        exact ⟨List.suffix_refl _, beginsWithMarker_length begins⟩
      · obtain ⟨suffix, long⟩ := ih h
        exact ⟨suffix.trans (List.suffix_cons b bs), long⟩

theorem fromMarker?_append {bs rest : Bytes} (h : fromMarker? bs = some rest) (more : Bytes) :
    fromMarker? (bs ++ more) = some (rest ++ more) := by
  induction bs with
  | nil => cases h
  | cons b bs ih =>
      have long : 14 ≤ (b :: bs).length := by
        obtain ⟨suffix, long⟩ := fromMarker?_suffix h
        exact Nat.le_trans long suffix.length_le
      unfold fromMarker? at h
      rw [List.cons_append, fromMarker?, ← List.cons_append, beginsWithMarker_append long]
      split at h
      · rename_i begins
        rw [if_pos begins, Option.some.inj h]
      · rename_i other
        rw [if_neg other, ih h]

theorem markerTail_of_short {bs : Bytes} (short : bs.length ≤ 13) : markerTail bs = bs := by
  rw [markerTail, marker_length, Nat.sub_eq_zero_of_le short, List.drop_zero]

theorem markerTail_cons {b : UInt8} {bs : Bytes} (long : 13 ≤ bs.length) :
    markerTail (b :: bs) = markerTail bs := by
  have size : (b :: bs).length - (14 - 1) = bs.length - (14 - 1) + 1 := by
    rw [List.length_cons]
    omega
  rw [markerTail, markerTail, marker_length, size, List.drop_succ_cons]

theorem markerTail_eq_nil {bs : Bytes} (h : markerTail bs = []) : bs = [] := by
  have size := congrArg List.length h
  rw [markerTail, marker_length, List.length_drop, List.length_nil] at size
  exact List.eq_nil_of_length_eq_zero (by omega)

theorem fromMarker?_cons_none {b : UInt8} {bs : Bytes} (h : fromMarker? (b :: bs) = none) :
    ¬ beginsWithMarker (b :: bs) = true ∧ fromMarker? bs = none := by
  unfold fromMarker? at h
  split at h
  · cases h
  · exact ⟨‹_›, h⟩

/-- The end of a buffer without the name is all that a later search needs. -/
theorem fromMarker?_markerTail {bs : Bytes} (h : fromMarker? bs = none) (more : Bytes) :
    fromMarker? (bs ++ more) = fromMarker? (markerTail bs ++ more) := by
  induction bs with
  | nil => rfl
  | cons b bs ih =>
      by_cases short : (b :: bs).length ≤ 13
      · rw [markerTail_of_short short]
      · rw [List.length_cons] at short
        obtain ⟨other, none⟩ := fromMarker?_cons_none h
        have long : 14 ≤ (b :: bs).length := by
          rw [List.length_cons]
          omega
        rw [markerTail_cons (by omega), ← ih none, List.cons_append, fromMarker?, ← List.cons_append,
          beginsWithMarker_append long, if_neg other]

theorem markerTail_append (bs more : Bytes) :
    markerTail (bs ++ more) = markerTail (markerTail bs ++ more) := by
  induction bs with
  | nil => rfl
  | cons b bs ih =>
      by_cases short : (b :: bs).length ≤ 13
      · rw [markerTail_of_short short]
      · rw [List.length_cons] at short
        have shorter : markerTail (b :: bs) = markerTail bs := markerTail_cons (by omega)
        rw [shorter, ← ih, List.cons_append, markerTail_cons (by rw [List.length_append]; omega)]

/-! ### Names and lines -/

def lineOf (bs : Bytes) : Bytes := bs.takeWhile (· != lineFeed)

theorem lineOf_of_open {bs : Bytes} (h : lineFeed ∉ bs) : lineOf bs = bs := by
  refine List.takeWhile_eq_self_iff.mpr fun b held => ?_
  exact bne_iff_ne.mpr fun same => h (same ▸ held)

theorem lineOf_append {bs : Bytes} (h : lineFeed ∉ bs) (more : Bytes) :
    lineOf (bs ++ more) = bs ++ lineOf more := by
  refine List.takeWhile_append_of_pos fun b held => ?_
  exact bne_iff_ne.mpr fun same => h (same ▸ held)

theorem lineOf_line {raw : Bytes} (h : lineFeed ∉ raw) (rest : Bytes) :
    lineOf (raw ++ lineFeed :: rest) = raw := by
  rw [lineOf_append h]
  exact List.append_nil raw

theorem lineOf_unended (bs : Bytes) : lineFeed ∉ lineOf bs := by
  intro held
  have other := List.mem_takeWhile_imp held
  exact bne_iff_ne.mp other rfl

/-- The name is spelled in plain letters. -/
theorem plain_of_name {name : Bytes} (spelled : name.map lowered = marker) :
    ∀ b ∈ name, b.toNat < 128 ∧ b ≠ 58 ∧ b ≠ lineFeed ∧ b ≠ carriageReturn := by
  intro b held
  have letter : lowered b ∈ marker := spelled ▸ List.mem_map_of_mem held
  have letters : ∀ c ∈ marker, c.toNat < 128 ∧ c ≠ 58 ∧ c ≠ lineFeed ∧ c ≠ carriageReturn := by
    decide +kernel
  unfold lowered at letter
  split at letter
  · rename_i upper
    obtain ⟨low, high⟩ := upper
    refine ⟨Nat.lt_of_le_of_lt high (by decide), ?_, ?_, ?_⟩ <;> rintro rfl <;> exact absurd low (by decide)
  · exact letters b letter

theorem beginsWithMarker_unended {bs : Bytes} (h : beginsWithMarker bs = true) :
    lineFeed ∉ bs.take 14 := by
  have spelled := eq_of_beq h
  rw [marker_length] at spelled
  exact fun held => (plain_of_name spelled _ held).2.2.1 rfl

/-- A name does not reach over the end of a line. -/
theorem fromMarker?_line {raw : Bytes} (h : fromMarker? raw = none) (rest : Bytes) :
    fromMarker? (raw ++ lineFeed :: rest) = fromMarker? rest := by
  induction raw with
  | nil =>
      have other : ¬ beginsWithMarker (lineFeed :: rest) = true := fun begins =>
        beginsWithMarker_unended begins List.mem_cons_self
      rw [List.nil_append, fromMarker?, if_neg other]
  | cons b raw ih =>
      obtain ⟨here, none⟩ := fromMarker?_cons_none h
      have other : ¬ beginsWithMarker (b :: raw ++ lineFeed :: rest) = true := by
        -- The line is long enough for a name, or its end would stand inside the name.
        by_cases long : 14 ≤ (b :: raw).length
        · rwa [beginsWithMarker_append long]
        · intro begins
          refine beginsWithMarker_unended begins ?_
          rw [List.take_append, List.take_of_length_le (Nat.le_of_not_le long)]
          obtain ⟨n, left⟩ := Nat.exists_eq_add_one_of_ne_zero (Nat.sub_ne_zero_of_lt (Nat.lt_of_not_le long))
          rw [left, List.take_succ_cons]
          exact List.mem_append_right _ List.mem_cons_self
      rw [List.cons_append] at other ⊢
      rw [fromMarker?, if_neg other, ih none]

theorem fromMarker?_afterLine {bs : Bytes} (h : fromMarker? (lineOf bs) = none) :
    fromMarker? bs = fromMarker? (afterLine bs) := by
  rcases line_cases bs with unended | ⟨raw, rest, rfl, line⟩
  · rw [afterLine_of_open unended, ← lineOf_of_open unended, h]
    rfl
  · rw [lineOf_line line] at h
    rw [afterLine_line line, fromMarker?_line h]

/-- The first name in some bytes. -/
theorem fromMarker?_split {bs rest : Bytes} (h : fromMarker? bs = some rest) :
    ∃ before name after, bs = before ++ name ++ after ∧ name.map lowered = marker ∧
      fromMarker? (before ++ name) = some name := by
  induction bs with
  | nil => cases h
  | cons b bs ih =>
      unfold fromMarker? at h
      split at h
      · rename_i begins
        have spelled := eq_of_beq begins
        refine ⟨[], (b :: bs).take marker.length, (b :: bs).drop marker.length,
          (List.take_append_drop _ _).symm, spelled, ?_⟩
        have again : beginsWithMarker ((b :: bs).take marker.length) = true := by
          rw [beginsWithMarker, List.take_take, Nat.min_self]
          exact begins
        rw [List.nil_append]
        rw [marker_length, List.take_succ_cons] at again ⊢
        rw [fromMarker?, if_pos again]
      · rename_i other
        obtain ⟨before, name, after, rfl, spelled, found⟩ := ih h
        refine ⟨b :: before, name, after, rfl, spelled, ?_⟩
        have long : 14 ≤ (b :: (before ++ name)).length := by
          have size := congrArg List.length spelled
          rw [List.length_map, marker_length] at size
          rw [List.length_cons, List.length_append]
          omega
        rw [← List.cons_append, beginsWithMarker_append long] at other
        rw [List.cons_append, fromMarker?, if_neg other, found]

end ServerProbe.Framing
