import ServerProbe.Proofs.Framing.Feed
import ServerProbe.Proofs.Framing.LengthLine
/-!
Streams of frames. However such a stream is cut, it gives one result for each frame, in their order;
and a decoder that has been fed a part of it holds an unfinished frame exactly when that part ends
inside one.
-/

namespace ServerProbe.Framing

/-- A body whose length can be announced. It may be longer than is read. -/
structure Parcel where
  body : Bytes
  announced : body.length < UInt64.size

namespace Parcel

def wire (p : Parcel) : Bytes := frame p.body

/-- What comes of a parcel: what its body holds, or the fault of its length. -/
def result (p : Parcel) : Decoded :=
  if greatestBody < p.body.length then .error (.frame (.bodyTooLong p.body.length))
  else decodeBody p.body

end Parcel

def stream (parcels : List Parcel) : Bytes := parcels.flatMap Parcel.wire

/-- The start of a stream that ends inside a frame. -/
def EndsInside (parcels : List Parcel) (bytes : Bytes) : Prop :=
  ∃ before parcel after start rest, parcels = before ++ parcel :: after ∧
    parcel.wire = start ++ rest ∧ start ≠ [] ∧ rest ≠ [] ∧ bytes = stream before ++ start

theorem not_endsInside_start (parcels : List Parcel) : ¬ EndsInside parcels [] := by
  rintro ⟨before, parcel, after, start, rest, -, -, some, -, none⟩
  exact some (List.append_eq_nil_iff.mp none.symm).2

/-- Past the first frame, the rest of the stream counts. -/
theorem endsInside_cons (parcel : Parcel) (parcels : List Parcel) (bytes : Bytes) :
    EndsInside (parcel :: parcels) (parcel.wire ++ bytes) ↔ EndsInside parcels bytes := by
  constructor
  · rintro ⟨before, inner, after, start, rest, split, cut, some, more, ends⟩
    cases before with
    | nil =>
        -- The first frame is there in full, so it is not the one the bytes end in.
        obtain ⟨rfl, rfl⟩ := List.cons.inj split
        have size := congrArg List.length cut
        have size' := congrArg List.length ends
        have least := List.length_pos_iff.mpr more
        rw [List.length_append] at size
        rw [stream, List.flatMap_nil, List.nil_append, List.length_append] at size'
        omega
    | cons first before =>
        obtain ⟨rfl, rfl⟩ := List.cons.inj split
        rw [stream, List.flatMap_cons, List.append_assoc] at ends
        exact ⟨before, inner, after, start, rest, rfl, cut, some, more, List.append_cancel_left ends⟩
  · rintro ⟨before, inner, after, start, rest, rfl, cut, some, more, rfl⟩
    refine ⟨parcel :: before, inner, after, start, rest, rfl, cut, some, more, ?_⟩
    rw [stream, stream, List.flatMap_cons, List.append_assoc]

namespace Decoder

/-! ### Inside a body -/

def waiting (length : Nat) (arrived : Bytes) : Decoder := ⟨arrived, some length, 0, false, .fresh⟩

def skipping (length : Nat) (arrived : Bytes) : Decoder := ⟨arrived, none, length, false, .fresh⟩

theorem waiting_feed {length : Nat} {arrived : Bytes} (short : arrived.length < length) :
    (waiting length arrived).feed [] = ([], waiting length arrived) := by
  have tidy : (waiting length arrived).Tidy := tidy_of_fresh rfl
  refine tidy.feed_stop ?_
  rw [push_nil]
  exact advance_awaits (Nat.zero_le _) rfl rfl short

theorem waiting_feed_whole (body : Bytes) :
    (waiting body.length body).feed [] = ([decodeBody body], fresh) := by
  have tidy : (waiting body.length body).Tidy := tidy_of_fresh rfl
  have step : ((waiting body.length body).push []).advance = (true, [decodeBody body], fresh) := by
    have found : (waiting body.length body).found? = some body := rfl
    rw [push_nil, advance_body (Nat.zero_le _) found rfl (Nat.le_refl _), List.take_length,
      List.drop_length]
    rfl
  rw [tidy.feed_step step, fresh_resting.feed_nil]
  rfl

theorem skipping_feed {length : Nat} {arrived : Bytes} (short : arrived.length < length) :
    (skipping length arrived).feed [] = ([], skipping (length - arrived.length) []) := by
  have tidy : (skipping length arrived).Tidy := tidy_of_fresh rfl
  refine tidy.feed_stop ?_
  rw [push_nil]
  exact advance_skips short

theorem skipping_feed_whole (body : Bytes) : (skipping body.length body).feed [] = ([], fresh) := by
  have tidy : (skipping body.length body).Tidy := tidy_of_fresh rfl
  have found : (skipping body.length body).found? = some [] := congrArg some List.drop_length
  refine tidy.feed_stop ?_
  rw [push_nil, advance_found (Nat.le_refl _) found]
  exact fresh_resting.settled

/-! ### One frame -/

theorem advance_lengthHeader {n : Nat} (announced : n < UInt64.size) (more : Bytes) :
    (fresh.push (lengthHeader n ++ more)).advance =
      if greatestBody < n then (true, [.error (.frame (.bodyTooLong n))], skipping n more)
      else (true, [], waiting n more) := by
  have kept : strip (lengthHeader n ++ more) .fresh = lengthHeader n ++ more := by
    obtain ⟨rest, head⟩ := lengthLine_head n
    rw [lengthHeader, head]
    exact strip_of_head (by decide)
  have scans : Scans ((lengthHeader n ++ more).drop Scan.fresh.pos) .fresh _ .fresh :=
    scans_lengthHeader announced more
  rw [show fresh.push (lengthHeader n ++ more) = reading (lengthHeader n ++ more) .fresh from rfl,
    reading_advance, takeHeader_eq, kept, scans.scanHeader_eq]
  dsimp only
  rw [List.drop_left]
  rfl

theorem feed_wire (p : Parcel) : fresh.feed p.wire = ([p.result], fresh) := by
  have step := advance_lengthHeader p.announced p.body
  rw [Parcel.wire, frame_eq, Parcel.result]
  split
  · rename_i exceeds
    rw [if_pos exceeds] at step
    rw [fresh_tidy.feed_step step, skipping_feed_whole]
    rfl
  · rename_i fits
    rw [if_neg fits] at step
    rw [fresh_tidy.feed_step step, waiting_feed_whole]
    rfl

structure MidFrame (d : Decoder) : Prop where
  free : d.resyncing = false
  pending : d.hasPartial = true

theorem feed_header_part {n : Nat} (announced : n < UInt64.size) {start left : Bytes}
    (cut : lengthHeader n = start ++ left) (some : start ≠ []) (more : left ≠ []) :
    (fresh.feed start).2.MidFrame := by
  obtain ⟨scan, waits⟩ := scanHeader_part announced cut more
  obtain ⟨tail, rfl⟩ : ∃ tail, start = 67 :: tail := by
    obtain ⟨line, named⟩ := lengthLine_head n
    rw [lengthHeader, named] at cut
    cases start with
    | nil => exact absurd rfl some
    | cons b tail => exact ⟨tail, by rw [(List.cons.inj cut).1]⟩
  have kept : strip (67 :: tail) .fresh = 67 :: tail := strip_of_head (by decide)
  have step : (fresh.push (67 :: tail)).advance = (false, [], reading (67 :: tail) scan) := by
    rw [show fresh.push (67 :: tail) = reading (67 :: tail) .fresh from rfl, reading_advance,
      takeHeader_eq, kept, waits]
  rw [fresh_tidy.feed_stop step]
  exact ⟨rfl, rfl⟩

theorem feed_body_part {p : Parcel} {arrived rest : Bytes} (cut : p.body = arrived ++ rest)
    (more : rest ≠ []) : (fresh.feed (lengthHeader p.body.length ++ arrived)).2.MidFrame := by
  have short : arrived.length < p.body.length := by
    have size := congrArg List.length cut
    have least := List.length_pos_iff.mpr more
    rw [List.length_append] at size
    omega
  have step := advance_lengthHeader p.announced arrived
  by_cases exceeds : greatestBody < p.body.length
  · rw [if_pos exceeds] at step
    rw [fresh_tidy.feed_step step, skipping_feed short]
    refine ⟨rfl, ?_⟩
    have left : 0 < p.body.length - arrived.length := Nat.sub_pos_of_lt short
    show (false || decide (0 < p.body.length - arrived.length) || false) = true
    rw [decide_eq_true left]
    rfl
  · rw [if_neg exceeds] at step
    rw [fresh_tidy.feed_step step, waiting_feed short]
    exact ⟨rfl, rfl⟩

theorem feed_wire_part {p : Parcel} {start rest : Bytes} (split : p.wire = start ++ rest)
    (some : start ≠ []) (more : rest ≠ []) : (fresh.feed start).2.MidFrame := by
  rw [Parcel.wire, frame_eq] at split
  rcases List.append_eq_append_iff.mp split with ⟨arrived, begun, cut⟩ | ⟨left, cut, ends⟩
  · rw [begun]
    exact feed_body_part cut more
  · by_cases whole : left = []
    · rw [whole, List.append_nil] at cut
      rw [whole, List.nil_append] at ends
      rw [← cut, ← List.append_nil (lengthHeader p.body.length)]
      exact feed_body_part ends.symm (ends ▸ more)
    · exact feed_header_part p.announced cut some whole

/-! ### The stream -/

/-- What has come of the start of a stream. -/
structure Reads (parcels : List Parcel) (bytes rest : Bytes) : Prop where
  whole : rest = [] → (fresh.feed bytes).1 = parcels.map Parcel.result
  free : (fresh.feed bytes).2.resyncing = false
  inside : (fresh.feed bytes).2.hasPartial = true ↔ EndsInside parcels bytes

theorem reads_start {parcels : List Parcel} {rest : Bytes} (more : parcels ≠ [] → rest ≠ []) :
    Reads parcels [] rest := by
  have silent : fresh.feed [] = ([], fresh) := fresh_resting.feed_nil
  refine ⟨fun none => ?_, ?_, ?_⟩
  · have empty : parcels = [] := by
      by_contra some
      exact more some none
    rw [silent, empty]
    rfl
  · rw [silent]
    rfl
  · rw [silent]
    exact ⟨fun pending => (by cases pending), fun inside => absurd inside (not_endsInside_start parcels)⟩

theorem not_overflows_of_free {bytes : Bytes} (free : (fresh.feed bytes).2.resyncing = false) :
    ¬ Overflows fresh bytes := by
  rintro ⟨⟨earlier, fed⟩, -⟩
  rw [fed] at free
  cases free

theorem Reads.cons {p : Parcel} {parcels : List Parcel} {bytes rest : Bytes}
    (h : Reads parcels bytes rest) : Reads (p :: parcels) (p.wire ++ bytes) rest := by
  have one := feed_wire p
  have kept : ¬ Overflows fresh p.wire := not_overflows_of_free (by rw [one]; rfl)
  have fed := fresh_resting.feed_append kept bytes
  rw [one] at fed
  refine ⟨fun none => ?_, ?_, ?_⟩
  · rw [fed, h.whole none]
    rfl
  · rw [fed]
    exact h.free
  · rw [fed, endsInside_cons]
    exact h.inside

theorem reads_part (parcels : List Parcel) {bytes rest : Bytes} (cut : bytes ++ rest = stream parcels) :
    Reads parcels bytes rest := by
  induction parcels generalizing bytes with
  | nil =>
      obtain ⟨rfl, -⟩ := List.append_eq_nil_iff.mp cut
      exact reads_start fun some => absurd rfl some
  | cons p parcels ih =>
      rw [stream, List.flatMap_cons] at cut
      -- The bytes end in the first frame, at its end, or after it.
      rcases List.append_eq_append_iff.mp cut with ⟨left, split, ends⟩ | ⟨later, split, ends⟩
      · by_cases none : left = []
        · rw [none, List.append_nil] at split
          rw [none, List.nil_append] at ends
          have later : Reads parcels [] rest := ih ends
          have last := later.cons (p := p)
          rwa [List.append_nil, split] at last
        by_cases start : bytes = []
        · subst start
          refine reads_start fun _ => ?_
          rw [ends]
          exact List.append_ne_nil_of_left_ne_nil none _
        · have mid := feed_wire_part split start none
          refine ⟨fun gone => ?_, mid.free, fun _ => ?_, fun _ => mid.pending⟩
          · rw [gone] at ends
            exact absurd (List.append_eq_nil_iff.mp ends.symm).1 none
          · exact ⟨[], p, parcels, bytes, left, rfl, split, start, none, rfl⟩
      · rw [split]
        exact (ih ends.symm).cons

/-- However the start of a stream of frames is cut, the whole stream gives one result for each frame,
and the decoder holds an unfinished frame when the start ends inside one. -/
theorem round_trip (parcels : List Parcel) (pieces : List Bytes) (rest : Bytes)
    (cut : pieces.flatten ++ rest = stream parcels) :
    (rest = [] → fresh.items pieces = parcels.map Parcel.result) ∧
      ((feedAll fresh pieces).2.hasPartial = true ↔ EndsInside parcels pieces.flatten) := by
  have keeps : ∀ bytes, bytes <+: pieces.flatten → ¬ Overflows fresh bytes := by
    rintro bytes ⟨more, split⟩
    rw [← split, List.append_assoc] at cut
    exact not_overflows_of_free (reads_part parcels cut).free
  have fed := fresh_resting.feedAll_eq keeps
  have reads := reads_part parcels cut
  have told : fresh.items pieces = (fresh.feed pieces.flatten).1 := congrArg Prod.fst fed
  have left : (feedAll fresh pieces).2 = (fresh.feed pieces.flatten).2 := congrArg Prod.snd fed
  rw [told, left]
  exact ⟨reads.whole, reads.inside⟩

theorem round_trip_two_frames :
    [frame [] ++ (frame [123, 125]).take 5, (frame [123, 125]).drop 5].flatten ++ [] =
        stream [⟨[], by decide⟩, ⟨[123, 125], by decide⟩] ∧
      fresh.items [frame [] ++ (frame [123, 125]).take 5, (frame [123, 125]).drop 5] =
        [decodeBody [], decodeBody [123, 125]] := by
  have cut : [frame [] ++ (frame [123, 125]).take 5, (frame [123, 125]).drop 5].flatten ++ [] =
      stream [⟨[], by decide⟩, ⟨[123, 125], by decide⟩] := by decide
  exact ⟨cut, (round_trip _ _ [] cut).1 rfl⟩

end Decoder
end ServerProbe.Framing
