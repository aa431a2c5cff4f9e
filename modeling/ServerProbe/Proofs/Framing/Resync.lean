import ServerProbe.Proofs.Framing.Chunking
import ServerProbe.Proofs.Framing.RoundTrip
/-!
Frames behind bytes that are dropped. A decoder that looks for the next header's name finds the name
of the first frame and not one that begins before it, since no letter of the name but the first is
that first letter; so it loses no frame, wherever the bytes are cut.
-/

namespace ServerProbe.Framing

/-! ### The name among other bytes -/

/-- The header's name stands somewhere in the bytes, in some letter case. -/
def Names (bs : Bytes) : Prop := ∃ name, name <:+: bs ∧ name.map lowered = marker

theorem beginsWithMarker_name {name : Bytes} (spelled : name.map lowered = marker) (after : Bytes) :
    beginsWithMarker (name ++ after) = true := by
  have size : name.length = marker.length := by rw [← spelled, List.length_map]
  rw [beginsWithMarker, ← size, List.take_left, spelled]
  exact beq_self_eq_true _

theorem fromMarker?_of_begins {bs : Bytes} (begins : beginsWithMarker bs = true) :
    fromMarker? bs = some bs := by
  cases bs with
  | nil => cases begins
  | cons b bs => rw [fromMarker?, if_pos begins]

theorem fromMarker?_eq_none_iff {bs : Bytes} : fromMarker? bs = none ↔ ¬ Names bs := by
  constructor
  · rintro none ⟨name, ⟨before, after, rfl⟩, spelled⟩
    induction before with
    | nil =>
        rw [List.nil_append, fromMarker?_of_begins (beginsWithMarker_name spelled after)] at none
        cases none
    | cons b before ih => exact ih (fromMarker?_cons_none none).2
  · intro unnamed
    by_contra found
    obtain ⟨rest, found⟩ := Option.ne_none_iff_exists'.mp found
    obtain ⟨before, name, after, split, spelled, -⟩ := fromMarker?_split found
    exact unnamed ⟨name, ⟨before, after, split.symm⟩, spelled⟩

instance : DecidablePred Names := fun bs =>
  decidable_of_iff (fromMarker? bs ≠ none) (by rw [Ne, fromMarker?_eq_none_iff, not_not])

theorem Names.of_infix {xs ys : Bytes} (named : Names xs) (part : xs <:+: ys) : Names ys := by
  obtain ⟨name, inside, spelled⟩ := named
  exact ⟨name, inside.trans part, spelled⟩

theorem letter_of_begins {bs : Bytes} (begins : beginsWithMarker bs = true) {k : Nat} (short : k < 14) :
    bs[k]?.map lowered = marker[k]? := by
  have spelled := eq_of_beq begins
  rw [← spelled, List.getElem?_map, List.getElem?_take_of_lt (marker_length ▸ short)]

/-- The first letter of the name does not come again in it. -/
theorem first_letter_once : ∀ k < 14, marker[k]? = marker[0]? → k = 0 := by decide

/-- A name that begins in bytes without a name does not end in a name that follows them. -/
theorem fromMarker?_unnamed {junk rest : Bytes} (unnamed : fromMarker? junk = none)
    (begins : beginsWithMarker rest = true) : fromMarker? (junk ++ rest) = some rest := by
  induction junk with
  | nil => exact fromMarker?_of_begins begins
  | cons b junk ih =>
      obtain ⟨here, none⟩ := fromMarker?_cons_none unnamed
      have other : ¬ beginsWithMarker (b :: junk ++ rest) = true := by
        by_cases long : 14 ≤ (b :: junk).length
        · rwa [beginsWithMarker_append long]
        · intro straddles
          have short := Nat.lt_of_not_le long
          have letter := letter_of_begins straddles short
          rw [List.getElem?_append_right (Nat.le_refl _), Nat.sub_self,
            letter_of_begins begins (by decide)] at letter
          cases first_letter_once _ short letter.symm
      rw [List.cons_append] at other ⊢
      rw [fromMarker?, if_neg other, ih none]

theorem lengthName_lowered : (Utf8.encode "Content-Length").map lowered = marker := by decide

theorem beginsWithMarker_wire (p : Parcel) (more : Bytes) :
    beginsWithMarker (p.wire ++ more) = true := by
  have named : "Content-Length: " = "Content-Length" ++ ": " := by decide
  rw [Parcel.wire, frame, named, String.append_assoc, String.append_assoc, Utf8.encode_append,
    List.append_assoc, List.append_assoc]
  exact beginsWithMarker_name lengthName_lowered _

/-! ### The search -/

/-- A search for a name that comes right behind bytes without one, as far as it has got. -/
theorem searched {held junk : Bytes} (unnamed : fromMarker? (held ++ junk) = none)
    {parcels : List Parcel} {bytes rest : Bytes} (cut : bytes ++ rest = junk ++ stream parcels) :
    fromMarker? (held ++ bytes) = none ∨ ∃ start, start ++ rest = stream parcels ∧
      fromMarker? (held ++ bytes) = some start := by
  rcases List.append_eq_append_iff.mp cut with ⟨left, split, -⟩ | ⟨start, rfl, ends⟩
  · left
    rw [fromMarker?_eq_none_iff] at unnamed ⊢
    refine fun named => unnamed (named.of_infix ⟨[], left, ?_⟩)
    rw [List.nil_append, List.append_assoc, ← split]
  · cases found : fromMarker? (held ++ (junk ++ start)) with
    | none => exact .inl rfl
    | some name =>
        refine .inr ⟨start, ends.symm, ?_⟩
        have more := fromMarker?_append found rest
        rw [← List.append_assoc, List.append_assoc, ← ends] at more
        cases parcels with
        | nil =>
            rw [stream, List.flatMap_nil, List.append_nil, unnamed] at more
            cases more
        | cons p parcels =>
            have begins : beginsWithMarker (stream (p :: parcels)) = true := beginsWithMarker_wire p _
            rw [fromMarker?_unnamed unnamed begins, ends] at more
            rw [List.append_cancel_right (Option.some.inj more)]

namespace Decoder

/-- A decoder that is dropping input has nothing else under way. -/
def Seeks (d : Decoder) : Prop := d.resyncing = true → d = seeking d.buffer

theorem fresh_seeks : fresh.Seeks := fun seeks => by cases seeks

theorem Seeks.push {d : Decoder} (h : d.Seeks) (more : Bytes) : (d.push more).Seeks := by
  intro seeks
  rw [h seeks]
  rfl

theorem Seeks.stopped {d e : Decoder} (h : d.Seeks) (tidy : d.Tidy)
    (step : d.advance = (false, [], e)) : e.Seeks := by
  intro seeks
  have searching := h ((advance_stopped tidy step).mode seeks)
  have enough : d.skip ≤ d.buffer.length := by
    rw [searching]
    exact Nat.zero_le _
  cases found : d.found? with
  | none =>
      rw [advance_seeks enough found, searching] at step
      rw [← (Prod.mk.inj (Prod.mk.inj step).2).2]
      rfl
  | some rest =>
      have free : d.awaited = none := congrArg Decoder.awaited searching
      rw [advance_reads enough found free] at step
      cases (takeHeader_stopped (tidy.reads found) step).mode seeks

theorem Drains.seeks {d e : Decoder} {out : List Decoded} {dropped : Bool}
    (h : Drains d out e dropped) (tidy : d.Tidy) (seeks : d.Seeks) : e.Seeks := by
  induction h with
  | stop step => exact seeks.stopped tidy step
  | drop step drops =>
      rw [drops.lost]
      exact fun _ => rfl
  | go step keeps rest ih =>
      have went := advance_went tidy step
      refine ih went.tidy fun searching => ?_
      rcases went.mode with free | ⟨-, same⟩
      · rw [free] at searching
        cases searching
      · exact same

theorem feedAll_seeks {d : Decoder} (h : d.Resting) (seeks : d.Seeks) (pieces : List Bytes) :
    (feedAll d pieces).2.Resting ∧ (feedAll d pieces).2.Seeks := by
  induction pieces generalizing d with
  | nil => exact ⟨h, seeks⟩
  | cons piece pieces ih =>
      obtain ⟨dropped, drains⟩ := feed_drains h.tidy piece
      exact ih (feed_resting h.tidy piece) (drains.seeks (h.tidy.push piece) (seeks.push piece))

theorem seeking_feed (held bytes : Bytes) : (seeking held).feed bytes = lost.feed (held ++ bytes) := rfl

/-- What a decoder that looks for a name makes of the start of a stream behind bytes without one. -/
theorem seeking_reads {held junk : Bytes} (unnamed : fromMarker? (held ++ junk) = none)
    {parcels : List Parcel} {bytes rest : Bytes} (cut : bytes ++ rest = junk ++ stream parcels) :
    ¬ Overflows (seeking held) bytes ∧
      (rest = [] → ((seeking held).feed bytes).1 = parcels.map Parcel.result) := by
  rcases searched unnamed cut with none | ⟨start, ends, found⟩
  · have fed := (seeking_feed held bytes).trans (lost_feed_of_none none)
    refine ⟨fun overflows => overflows.out_ne_nil (by rw [fed]), fun last => ?_⟩
    rw [last, List.append_nil] at cut
    cases parcels with
    | nil => rw [fed, List.map_nil]
    | cons p parcels =>
        have begins : beginsWithMarker (stream (p :: parcels)) = true := beginsWithMarker_wire p _
        rw [cut, ← List.append_assoc, fromMarker?_unnamed unnamed begins] at none
        cases none
  · have fed := (seeking_feed held bytes).trans (lost_feed_of_some found)
    have reads := reads_part parcels ends
    refine ⟨?_, fun last => ?_⟩
    · rintro ⟨⟨earlier, dropped⟩, -⟩
      have free := reads.free
      rw [← fed, dropped] at free
      cases free
    · rw [fed]
      exact reads.whole last

/-- A decoder that drops input after a bad header gives what the frames behind it hold and nothing
else, however the input is cut. -/
theorem resync_keeps_frames (history : List Bytes) (junk : Bytes) (bodies pieces : List Bytes)
    (searching : (feedAll fresh history).2.resyncing = true)
    (unnamed : ¬ Names ((feedAll fresh history).2.buffer ++ junk))
    (small : ∀ body ∈ bodies, body.length ≤ greatestBody)
    (cut : pieces.flatten = junk ++ bodies.flatMap frame) :
    (feedAll fresh history).2.items pieces = bodies.map decodeBody := by
  obtain ⟨resting, seeks⟩ := feedAll_seeks fresh_resting fresh_seeks history
  generalize (feedAll fresh history).2 = d at searching unnamed resting seeks ⊢
  obtain ⟨parcels, rfl⟩ : ∃ parcels : List Parcel, bodies = parcels.map Parcel.body := by
    have announced : ∀ body ∈ bodies, body.length < UInt64.size := fun body held =>
      Nat.lt_of_le_of_lt (small body held) (by decide)
    refine ⟨bodies.attach.map fun body => ⟨body.1, announced _ body.2⟩, ?_⟩
    rw [List.map_map]
    exact bodies.attach_map_subtype_val.symm
  have split : pieces.flatten ++ [] = junk ++ stream parcels := by
    rw [List.append_nil, cut, stream, List.flatMap_map]
    rfl
  have absent := fromMarker?_eq_none_iff.mpr unnamed
  have keeps : ∀ bytes, bytes <+: pieces.flatten → ¬ Overflows d bytes := by
    rintro bytes ⟨rest, whole⟩
    rw [seeks searching]
    rw [← whole, List.append_nil] at split
    exact (seeking_reads absent split).1
  have told : d.items pieces = (d.feed pieces.flatten).1 :=
    congrArg Prod.fst (resting.feedAll_eq keeps)
  have results : parcels.map Parcel.result = (parcels.map Parcel.body).map decodeBody := by
    rw [List.map_map]
    refine List.map_congr_left fun p held => ?_
    exact if_neg (Nat.not_lt.mpr (small _ (List.mem_map_of_mem held)))
  have reads := (seeking_reads absent split).2 rfl
  rw [← seeks searching] at reads
  rw [told, reads, results]

/-- A line without a colon, and then the start of a name that does not go on. -/
theorem resync_keeps_frames_cut :
    (feedAll fresh [[120, lineFeed]]).2 = lost ∧
      (feedAll fresh [[120, lineFeed]]).2.items
          [[67, 111], [110] ++ (frame [123, 125]).take 9, (frame [123, 125]).drop 9 ++ frame []] =
        [decodeBody [123, 125], decodeBody []] := by
  have dropped : (feedAll fresh [[120, lineFeed]]).2 = lost := by decide +kernel
  refine ⟨dropped, resync_keeps_frames _ [67, 111, 110] [[123, 125], []] _ ?_ ?_ (by decide) (by decide)⟩
  · rw [dropped]
    rfl
  · rw [dropped]
    decide

end Decoder
end ServerProbe.Framing
