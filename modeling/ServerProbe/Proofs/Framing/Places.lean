import Mathlib.Data.List.Infix
import ServerProbe.Proofs.Framing.Feed
/-!
Places in a buffer. The steps of a decoder are written out once more, with every part of the buffer
taken by its places and the whole step given up where a place is outside of the buffer. In a run this
never happens, and each call comes to an end.
-/

namespace ServerProbe.Framing

/-- The bytes from one place up to another, if both are there and in this order. -/
def slice? (bs : Bytes) (start stop : Nat) : Option Bytes :=
  if start ≤ stop ∧ stop ≤ bs.length then some ((bs.drop start).take (stop - start)) else none

theorem slice?_tail {bs : Bytes} {n : Nat} (within : n ≤ bs.length) :
    slice? bs n bs.length = some (bs.drop n) := by
  rw [slice?, if_pos ⟨within, Nat.le_refl _⟩, ← List.length_drop, List.take_length]

theorem slice?_head {bs : Bytes} {n : Nat} (within : n ≤ bs.length) :
    slice? bs 0 n = some (bs.take n) := by
  rw [slice?, if_pos ⟨Nat.zero_le _, within⟩, List.drop_zero, Nat.sub_zero]

/-! ### Lines by their places -/

/-- Scans the lines of a block from the scanned part on. Nothing where a line is not in the buffer, or
where more than `fuel` lines are scanned. -/
def scanPlaces? : Nat → Bytes → Scan → Option (Header × Scan)
  | 0, _, _ => none
  | fuel + 1, buffer, scan => do
    let rest ← slice? buffer scan.pos buffer.length
    match rest.findIdx? (· == lineFeed) with
    | none =>
      if greatestHeader < buffer.length then some (.invalid .headerTooLong buffer.length, .fresh)
      else some (.incomplete, scan)
    | some offset =>
      let raw ← slice? buffer scan.pos (scan.pos + offset)
      match takeLine scan raw with
      | .inl header => some (header, .fresh)
      | .inr next => scanPlaces? fuel buffer next

theorem findIdx?_of_open {bs : Bytes} (h : lineFeed ∉ bs) : bs.findIdx? (· == lineFeed) = none := by
  refine List.findIdx?_eq_none_iff.mpr fun b held => ?_
  exact beq_false_of_ne fun same => h (same ▸ held)

theorem findIdx?_line {raw : Bytes} (h : lineFeed ∉ raw) (rest : Bytes) :
    (raw ++ lineFeed :: rest).findIdx? (· == lineFeed) = some raw.length := by
  rw [List.findIdx?_append, findIdx?_of_open h, List.findIdx?_cons, beq_self_eq_true]
  simp

/-- The lines that a scan takes are all in the buffer. -/
theorem Scans.scanPlaces?_eq {rest buffer : Bytes} {scan last : Scan} {header : Header}
    (scans : Scans rest scan header last) (within : scan.pos ≤ buffer.length)
    (split : buffer.drop scan.pos = rest) {fuel : Nat} (enough : rest.length ≤ fuel) :
    scanPlaces? (fuel + 1) buffer scan = some (header, last) := by
  have size {scan : Scan} {rest : Bytes} (within : scan.pos ≤ buffer.length)
      (split : buffer.drop scan.pos = rest) : buffer.length = scan.pos + rest.length := by
    rw [← split, List.length_drop]
    omega
  have line {scan : Scan} {raw rest : Bytes} (within : scan.pos ≤ buffer.length)
      (split : buffer.drop scan.pos = raw ++ lineFeed :: rest) :
      slice? buffer scan.pos (scan.pos + raw.length) = some raw := by
    have whole := size within split
    rw [List.length_append] at whole
    rw [slice?, if_pos ⟨Nat.le_add_right _ _, by omega⟩, split, Nat.add_sub_cancel_left, List.take_left]
  induction scans generalizing fuel with
  | @waits rest scan unended fits =>
      have short : ¬ greatestHeader < buffer.length := size within split ▸ Nat.not_lt.mpr fits
      simp only [scanPlaces?, slice?_tail within, split, Option.bind_eq_bind, Option.bind_some,
        findIdx?_of_open unended, if_neg short]
  | @overflows rest scan unended long =>
      rw [← size within split] at long ⊢
      simp only [scanPlaces?, slice?_tail within, split, Option.bind_eq_bind, Option.bind_some,
        findIdx?_of_open unended, if_pos long]
  | ends unbroken taken =>
      simp only [scanPlaces?, slice?_tail within, split, Option.bind_eq_bind, Option.bind_some,
        findIdx?_line unbroken, line within split, taken]
  | @goes raw rest scan next last header unbroken taken later ih =>
      obtain ⟨pos, -⟩ := takeLine_goes taken
      have whole := size within split
      rw [List.length_append, List.length_cons] at whole enough
      obtain ⟨fuel, rfl⟩ : ∃ less, fuel = less + 1 := ⟨fuel - 1, by omega⟩
      have later : buffer.drop next.pos = rest := by
        rw [pos, Nat.add_assoc, ← List.drop_drop, split, List.drop_append,
          List.drop_of_length_le (Nat.le_succ _), Nat.add_sub_cancel_left]
        rfl
      simp only [scanPlaces?, slice?_tail within, split, Option.bind_eq_bind, Option.bind_some,
        findIdx?_line unbroken, line within split, taken]
      exact ih (by omega) later (by omega)

/-- What a header block takes up is in the buffer. -/
theorem Scans.consumed {rest : Bytes} {scan last : Scan} {header : Header} {consumed : Nat}
    (scans : Scans rest scan header last) (ends : header.EndsAt consumed) :
    consumed ≤ scan.pos + rest.length := by
  induction scans with
  | waits unended fits => exact ends.elim
  | overflows unended long => exact Nat.le_of_eq (Eq.symm ends)
  | @ends raw rest scan header line taken =>
      have there := takeLine_ends taken
      have same : consumed = scan.pos + raw.length + 1 := by
        cases header with
        | incomplete => exact ends.elim
        | complete n k => exact (Eq.symm ends).trans there
        | invalid fault k => exact (Eq.symm ends).trans there
      rw [same, List.length_append, List.length_cons]
      omega
  | @goes raw rest scan next last header line taken later ih =>
      have more := ih ends
      rw [(takeLine_goes taken).1] at more
      rw [List.length_append, List.length_cons]
      omega

/-- The place of the first name in some bytes. -/
def markerPlace? (bs : Bytes) : Option Nat := bs.tails.findIdx? beginsWithMarker

theorem markerPlace?_fromMarker? (bs : Bytes) : fromMarker? bs = (markerPlace? bs).map bs.drop := by
  induction bs with
  | nil => rfl
  | cons b bs ih =>
      rw [fromMarker?, markerPlace?, List.tails_cons, List.findIdx?_cons]
      split
      · rfl
      · rw [ih, markerPlace?, Option.map_map]
        rfl

theorem markerPlace?_le {bs : Bytes} {place : Nat} (h : markerPlace? bs = some place) :
    place ≤ bs.length := by
  obtain ⟨within, -⟩ := List.findIdx?_eq_some_iff_getElem.mp h
  rw [List.length_tails] at within
  exact Nat.le_of_lt_succ within

namespace Decoder

/-! ### Steps by their places -/

def resync? (d : Decoder) : Option (Bool × Decoder) :=
  if d.resyncing then
    match markerPlace? d.buffer with
    | some place => do
      let buffer ← slice? d.buffer place d.buffer.length
      some (true, { d with buffer, resyncing := false })
    | none =>
      if marker.length - 1 < d.buffer.length then do
        let buffer ← slice? d.buffer (d.buffer.length - (marker.length - 1)) d.buffer.length
        some (false, { d with buffer })
      else some (false, d)
  else some (true, d)

def takeHeader? (d : Decoder) : Option (Bool × List Decoded × Decoder) := do
  let blank := if d.scan.pos == 0 then (d.buffer.takeWhile isLineEnd).length else 0
  let buffer ← slice? d.buffer blank d.buffer.length
  match ← scanPlaces? (buffer.length + 1) buffer d.scan with
  | (.incomplete, scan) => some (false, [], { d with buffer, scan })
  | (.complete length consumed, scan) =>
    let buffer ← slice? buffer consumed buffer.length
    if greatestBody < length then
      some (true, [.error (.frame (.bodyTooLong length))], { d with buffer, scan, skip := length })
    else some (true, [], { d with buffer, scan, awaited := some length })
  | (.invalid fault consumed, scan) =>
    let buffer ← slice? buffer consumed buffer.length
    some (true, [.error (.frame fault)], { d with buffer, scan, resyncing := true })

/-- One step of decoding that takes the parts of the buffer by their places, and comes to nothing where
one of them is not there. -/
def advance? (d : Decoder) : Option (Bool × List Decoded × Decoder) := do
  let dropped := min d.skip d.buffer.length
  let buffer ← slice? d.buffer dropped d.buffer.length
  let d := { d with buffer, skip := d.skip - dropped }
  if 0 < d.skip then some (false, [], d)
  else
    match ← d.resync? with
    | (false, d) => some (false, [], d)
    | (true, d) =>
      match d.awaited with
      | some n =>
        if d.buffer.length < n then some (false, [], d)
        else
          let body ← slice? d.buffer 0 n
          let buffer ← slice? d.buffer n d.buffer.length
          some (true, [decodeBody body], { d with buffer, awaited := none })
      | none => d.takeHeader?

theorem resync?_eq (d : Decoder) : d.resync? = some d.resync := by
  unfold resync? resync
  rw [markerPlace?_fromMarker?]
  split
  · cases found : markerPlace? d.buffer with
    | some place =>
        simp only [slice?_tail (markerPlace?_le found), Option.bind_eq_bind, Option.bind_some,
          Option.map_some]
    | none =>
        simp only [slice?_tail (Nat.sub_le _ _), Option.bind_eq_bind, Option.bind_some,
          Option.map_none]
        split
        · rfl
        · rename_i short
          rw [markerTail, Nat.sub_eq_zero_of_le (Nat.le_of_not_lt short), List.drop_zero]
  · rfl

theorem dropWhile_eq_drop (p : UInt8 → Bool) (bs : Bytes) :
    bs.dropWhile p = bs.drop (bs.takeWhile p).length := by
  have split := congrArg (List.drop (bs.takeWhile p).length)
    (List.takeWhile_append_dropWhile (p := p) (l := bs))
  rwa [List.drop_left] at split

theorem dropBlankLines_eq (d : Decoder) : ∃ blank, blank ≤ d.buffer.length ∧
    (if d.scan.pos == 0 then (d.buffer.takeWhile isLineEnd).length else 0) = blank ∧
      d.dropBlankLines = { d with buffer := d.buffer.drop blank } := by
  unfold dropBlankLines
  split
  · exact ⟨_, (List.takeWhile_prefix _).length_le, rfl, by rw [dropWhile_eq_drop]⟩
  · exact ⟨0, Nat.zero_le _, rfl, rfl⟩

theorem takeHeader?_eq {d : Decoder} (within : d.scan.pos ≤ d.buffer.length) :
    d.takeHeader? = some d.takeHeader := by
  obtain ⟨blank, inside, same, dropped⟩ := d.dropBlankLines_eq
  have start : d.scan.pos ≤ (d.buffer.drop blank).length := by
    by_cases first : d.scan.pos = 0
    · omega
    · rw [← same, beq_false_of_ne first]
      exact within
  have scans := scanHeader_scans (d.buffer.drop blank) d.scan
  have places : scanPlaces? ((d.buffer.drop blank).length + 1) (d.buffer.drop blank) d.scan =
      some (scanHeader (d.buffer.drop blank) d.scan) := by
    refine scans.scanPlaces?_eq start rfl ?_
    rw [List.length_drop]
    exact Nat.sub_le _ _
  unfold takeHeader? takeHeader
  simp only [same, dropped, slice?_tail inside, Option.bind_eq_bind, Option.bind_some, places]
  cases answer : scanHeader (d.buffer.drop blank) d.scan with
  | mk header next =>
      rw [answer] at scans
      have ends {consumed : Nat} (here : header.EndsAt consumed) :
          consumed ≤ (d.buffer.drop blank).length := by
        have most := scans.consumed here
        rw [List.length_drop] at most
        omega
      cases header with
      | incomplete => rfl
      | complete n consumed =>
          dsimp only
          rw [slice?_tail (ends rfl), Option.bind_some]
          split <;> rfl
      | invalid fault consumed =>
          dsimp only
          rw [slice?_tail (ends rfl), Option.bind_some]

theorem Tidy.searched {d again : Decoder} (tidy : d.Tidy) (done : ¬ 0 < d.dropSkipped.skip)
    (resynced : d.dropSkipped.resync = (true, again)) : again.scan.pos ≤ again.buffer.length := by
  have enough : d.skip ≤ d.buffer.length := by
    simp only [dropSkipped] at done
    omega
  have all : min d.skip d.buffer.length = d.skip := Nat.min_eq_left enough
  have left : d.dropSkipped = { d with buffer := d.buffer.drop d.skip, skip := 0 } := by
    rw [dropSkipped, all, Nat.sub_self]
  rw [left] at resynced
  have found : d.found? = some again.buffer ∧ again.scan = d.scan := by
    unfold resync at resynced
    unfold found?
    dsimp only at resynced
    split at resynced
    · rename_i seeks
      rw [if_pos seeks]
      split at resynced
      · rename_i rest here
        obtain rfl := (Prod.mk.inj resynced).2
        exact ⟨here, rfl⟩
      · cases resynced
    · rename_i free
      rw [if_neg free]
      obtain rfl := (Prod.mk.inj resynced).2
      exact ⟨rfl, rfl⟩
  rw [found.2]
  exact tidy.reads found.1

/-- A step of a decoder in a run takes no part of the buffer that is not there. -/
theorem Tidy.advance?_eq {d : Decoder} (tidy : d.Tidy) : d.advance? = some d.advance := by
  have dropped : min d.skip d.buffer.length ≤ d.buffer.length := Nat.min_le_right _ _
  simp only [advance?, slice?_tail dropped, Option.bind_eq_bind, Option.bind_some]
  change (if 0 < d.dropSkipped.skip then _ else (d.dropSkipped.resync?).bind _) = _
  unfold advance
  dsimp only
  rw [resync?_eq, Option.bind_some]
  split
  · rfl
  · rename_i done
    cases resynced : d.dropSkipped.resync with
    | mk goes again =>
        cases goes with
        | false => rfl
        | true =>
            dsimp only
            cases awaited : again.awaited with
            | none => exact takeHeader?_eq (tidy.searched done resynced)
            | some n =>
                dsimp only
                split
                · rfl
                · rename_i whole
                  have whole := Nat.le_of_not_lt whole
                  rw [slice?_head whole, slice?_tail whole]
                  rfl

/-- The steps of a decoder up to the one that stops, none of which takes what is not there. -/
inductive Runs : Decoder → List Decoded → Decoder → Prop
  | stop {d e : Decoder} {out : List Decoded} (step : d.advance? = some (false, out, e)) : Runs d out e
  | go {d e f : Decoder} {out later : List Decoded} (step : d.advance? = some (true, out, e))
      (rest : Runs e later f) : Runs d (out ++ later) f

/-- A call comes to an end, and takes no part of the buffer that is not there. -/
theorem Drains.runs {d e : Decoder} {out : List Decoded} {dropped : Bool}
    (h : Drains d out e dropped) (tidy : d.Tidy) : Runs d out e := by
  induction h with
  | stop step => exact .stop (tidy.advance?_eq.trans (congrArg some step))
  | @drop d e out step drops =>
      have next : Runs e [] e := by
        rw [drops.lost]
        have lost_tidy : lost.Tidy := tidy_of_fresh rfl
        exact .stop (lost_tidy.advance?_eq.trans (congrArg some lost_advance))
      have whole := Runs.go (tidy.advance?_eq.trans (congrArg some step)) next
      rwa [List.append_nil] at whole
  | go step keeps rest ih =>
      exact .go (tidy.advance?_eq.trans (congrArg some step)) (ih (advance_went tidy step).tidy)

end Decoder
end ServerProbe.Framing
