import ServerProbe.Proofs.Framing.Grammar
import ServerProbe.Proofs.Framing.Places
import ServerProbe.Proofs.Framing.Resync
/-!
What a decoder holds between two pieces. It is in one of four phases, each with a bound of its own on
the bytes that are held; a scan is under way in the last one only, and has been through header lines.
-/

namespace ServerProbe.Framing

/-- Bytes that do not begin with a blank line. -/
def Inked (bs : Bytes) : Prop := ∀ b ∈ bs.head?, isLineEnd b = false

theorem inked_nil : Inked [] := fun _ none => by cases none

theorem Inked.of_prefix {xs ys : Bytes} (inked : Inked ys) (start : xs <+: ys) : Inked xs := by
  obtain ⟨more, rfl⟩ := start
  intro b first
  refine inked b ?_
  rw [List.head?_append, Option.mem_def.mp first]
  rfl

theorem dropWhile_inked (bs : Bytes) : Inked (bs.dropWhile isLineEnd) := by
  intro b first
  have stays := List.head?_dropWhile_not isLineEnd bs
  rw [Option.mem_def.mp first] at stays
  exact stays

namespace Decoder

/-! ### Phases -/

/-- What a decoder that waits for more bytes has under way: a body that is dropped, a search for a
header's name, a body, or a header. -/
inductive Phase where
  | skipping
  | seeking
  | awaiting
  | heading

/-- What is held in a phase. -/
def Phase.Describes (d : Decoder) : Phase → Prop
  | .skipping => 0 < d.skip ∧ d.buffer = []
  | .seeking => d.resyncing = true ∧ d.buffer.length ≤ 13 ∧ ¬ Names d.buffer
  | .awaiting => ∃ n, d.awaited = some n ∧ n ≤ greatestBody ∧ d.buffer.length < n
  | .heading => (d.skip = 0 ∧ d.resyncing = false ∧ d.awaited = none) ∧
      d.buffer.length ≤ greatestHeader ∧ Inked d.buffer ∧ d.scan.pos ≤ d.buffer.length

/-- The decoders that wait for more bytes, by their phases. -/
inductive Rests : Decoder → Phase → Prop
  | skipping {n : Nat} (more : 0 < n) : Rests (skipping n []) .skipping
  | seeking {bs : Bytes} (short : bs.length ≤ 13) (unnamed : ¬ Names bs) : Rests (seeking bs) .seeking
  | awaiting {n : Nat} {bs : Bytes} (fits : n ≤ greatestBody) (short : bs.length < n) :
      Rests (waiting n bs) .awaiting
  | heading {lines : List HeaderLine} {left : Bytes}
      (fits : (arriving lines ++ left).length ≤ greatestHeader) (inked : Inked (arriving lines ++ left)) :
      Rests (reading (arriving lines ++ left) (scanned lines)) .heading

theorem fresh_rests : Rests fresh .heading :=
  @Rests.heading [] [] (Nat.zero_le _) inked_nil

theorem lost_rests : Rests lost .seeking :=
  .seeking (Nat.zero_le _) (fromMarker?_eq_none_iff.mp rfl)

/-- A decoder between two steps. -/
inductive Stage : Decoder → Prop
  | skipping (n : Nat) (bs : Bytes) : Stage (skipping n bs)
  | seeking (bs : Bytes) : Stage (seeking bs)
  | awaiting {n : Nat} (fits : n ≤ greatestBody) (bs : Bytes) : Stage (waiting n bs)
  | heading {lines : List HeaderLine} (within : (arriving lines).length ≤ greatestHeader)
      (inked : Inked (arriving lines)) (left : Bytes) :
      Stage (reading (arriving lines ++ left) (scanned lines))

theorem stage_start (bs : Bytes) : Stage (reading bs .fresh) :=
  @Stage.heading [] (Nat.zero_le _) inked_nil bs

theorem Rests.push {d : Decoder} {phase : Phase} (rests : Rests d phase) (bytes : Bytes) :
    Stage (d.push bytes) := by
  cases rests with
  | skipping more => exact .skipping _ _
  | seeking short unnamed => exact .seeking _
  | awaiting fits short => exact .awaiting fits _
  | @heading lines left fits inked =>
      rw [reading_push, List.append_assoc]
      refine .heading ?_ (inked.of_prefix (List.prefix_append _ _)) _
      rw [List.length_append] at fits
      omega

/-! ### Steps -/

/-- What a step leaves behind: a decoder at rest, or one before the next step. -/
def Leaves (step : Bool × List Decoded × Decoder) : Prop :=
  (step.1 = false → ∃ phase, Rests step.2.2 phase) ∧ (step.1 = true → Stage step.2.2)

theorem leaves_rest {d : Decoder} {phase : Phase} (out : List Decoded) (rests : Rests d phase) :
    Leaves (false, out, d) := ⟨fun _ => ⟨phase, rests⟩, fun goes => by cases goes⟩

theorem leaves_stage {d : Decoder} (out : List Decoded) (stage : Stage d) : Leaves (true, out, d) :=
  ⟨fun stops => (by cases stops), fun _ => stage⟩

/-- Blank lines are dropped from before the first line only. -/
theorem strip_arriving {lines : List HeaderLine} (inked : Inked (arriving lines)) (left : Bytes) :
    ∃ kept, strip (arriving lines ++ left) (scanned lines) = arriving lines ++ kept ∧
      Inked (arriving lines ++ kept) := by
  cases lines with
  | nil => exact ⟨left.dropWhile isLineEnd, rfl, dropWhile_inked left⟩
  | cons line lines =>
      have some : 0 < (arriving (line :: lines)).length := by
        simp only [arriving, List.flatMap_cons, List.length_append, List.length_cons]
        omega
      refine ⟨left, strip_of_pos (Nat.ne_of_gt some) _, fun b first => inked b ?_⟩
      rwa [List.head?_append_of_ne_nil _ (List.length_pos_iff.mp some)] at first

theorem takeHeader_leaves {lines : List HeaderLine} (within : (arriving lines).length ≤ greatestHeader)
    (inked : Inked (arriving lines)) (left : Bytes) :
    Leaves (reading (arriving lines ++ left) (scanned lines)).takeHeader := by
  obtain ⟨kept, stripped, opens⟩ := strip_arriving inked left
  have start := scanned_within lines kept
  rw [takeHeader_eq, stripped]
  cases answer : scanHeader (arriving lines ++ kept) (scanned lines) with
  | mk header next =>
      cases header with
      | incomplete =>
          obtain ⟨more, rest, rfl, split, -, fits⟩ := scanHeader_waits within answer
          rw [split] at fits opens ⊢
          exact leaves_rest [] (.heading fits opens)
      | complete n consumed =>
          obtain ⟨rfl, -⟩ := scanHeader_more start answer (fun waits => by cases waits)
          dsimp only
          split
          · exact leaves_stage _ (.skipping n _)
          · rename_i fits
            exact leaves_stage _ (.awaiting (Nat.le_of_not_lt fits) _)
      | invalid fault consumed =>
          obtain ⟨rfl, -⟩ := scanHeader_more start answer (fun waits => by cases waits)
          exact leaves_stage _ (.seeking _)

theorem start_leaves (bs : Bytes) : Leaves (reading bs .fresh).takeHeader :=
  @takeHeader_leaves [] (Nat.zero_le _) inked_nil bs

theorem markerTail_length (bs : Bytes) : (markerTail bs).length ≤ 13 := by
  rw [markerTail, List.length_drop, marker_length]
  omega

/-- Every phase is left in the way that the phases say. -/
theorem Stage.leaves {d : Decoder} (stage : Stage d) : Leaves d.advance := by
  cases stage with
  | skipping n bs =>
      by_cases short : bs.length < n
      · rw [advance_skips short]
        exact leaves_rest [] (.skipping (Nat.sub_pos_of_lt short))
      · rw [advance_reads (Nat.le_of_not_lt short) rfl rfl]
        exact start_leaves _
  | seeking bs =>
      have here : (Decoder.seeking bs).found? = fromMarker? bs := rfl
      cases found : fromMarker? bs with
      | none =>
          rw [advance_seeks (Nat.zero_le _) (here.trans found)]
          refine leaves_rest [] (.seeking (markerTail_length bs) fun named => ?_)
          exact fromMarker?_eq_none_iff.mp found (named.of_infix (List.drop_suffix _ _).isInfix)
      | some rest =>
          rw [advance_reads (Nat.zero_le _) (here.trans found) rfl]
          exact start_leaves _
  | @awaiting n fits bs =>
      have found : (waiting n bs).found? = some bs := rfl
      by_cases short : bs.length < n
      · rw [advance_awaits (Nat.zero_le _) found rfl short]
        exact leaves_rest [] (.awaiting fits short)
      · rw [advance_body (Nat.zero_le _) found rfl (Nat.le_of_not_lt short)]
        exact leaves_stage _ (stage_start _)
  | heading within inked left =>
      rw [reading_advance]
      exact takeHeader_leaves within inked left

theorem Drains.rests {d e : Decoder} {out : List Decoded} {dropped : Bool}
    (h : Drains d out e dropped) (stage : Stage d) : ∃ phase, Rests e phase := by
  induction h with
  | stop step =>
      have left := stage.leaves
      rw [step] at left
      exact left.1 rfl
  | drop step drops =>
      rw [drops.lost]
      exact ⟨.seeking, lost_rests⟩
  | go step keeps rest ih =>
      have left := stage.leaves
      rw [step] at left
      exact ih (left.2 rfl)

/-! ### Runs -/

theorem feed_rests {d : Decoder} {phase : Phase} (rests : Rests d phase) (tidy : d.Tidy) (bytes : Bytes) :
    ∃ phase, Rests (d.feed bytes).2 phase := by
  obtain ⟨dropped, drains⟩ := feed_drains tidy bytes
  exact drains.rests (rests.push bytes)

theorem feedAll_rests {d : Decoder} {phase : Phase} (rests : Rests d phase) (resting : d.Resting)
    (pieces : List Bytes) : (feedAll d pieces).2.Resting ∧ ∃ phase, Rests (feedAll d pieces).2 phase := by
  induction pieces generalizing d phase with
  | nil => exact ⟨resting, phase, rests⟩
  | cons piece pieces ih =>
      obtain ⟨next, later⟩ := feed_rests rests resting.tidy piece
      exact ih later (feed_resting resting.tidy piece)

theorem Rests.describes_iff {d : Decoder} {phase : Phase} (rests : Rests d phase) (other : Phase) :
    other.Describes d ↔ other = phase := by
  constructor
  · intro described
    cases rests with
    | skipping more =>
        cases other with
        | skipping => rfl
        | seeking => cases described.1
        | awaiting =>
            obtain ⟨n, awaited, -⟩ := described
            cases awaited
        | heading => exact absurd described.1.1 (Nat.ne_of_gt more)
    | seeking short unnamed =>
        cases other with
        | skipping => exact absurd described.1 (Nat.lt_irrefl _)
        | seeking => rfl
        | awaiting =>
            obtain ⟨n, awaited, -⟩ := described
            cases awaited
        | heading => cases described.1.2.1
    | awaiting fits short =>
        cases other with
        | skipping => exact absurd described.1 (Nat.lt_irrefl _)
        | seeking => cases described.1
        | awaiting => rfl
        | heading => cases described.1.2.2
    | heading fits inked =>
        cases other with
        | skipping => exact absurd described.1 (Nat.lt_irrefl _)
        | seeking => cases described.1
        | awaiting =>
            obtain ⟨n, awaited, -⟩ := described
            cases awaited
        | heading => rfl
  · rintro rfl
    cases rests with
    | skipping more => exact ⟨more, rfl⟩
    | seeking short unnamed => exact ⟨rfl, short, unnamed⟩
    | awaiting fits short => exact ⟨_, rfl, fits, short⟩
    | @heading lines left fits inked => exact ⟨⟨rfl, rfl, rfl⟩, fits, inked, scanned_within lines left⟩

/-- What is held is as one phase says. A scan is under way in a header only, and what it has been through
is header lines. -/
structure Kept (d : Decoder) : Prop where
  phase : ∃! phase : Phase, phase.Describes d
  scanning : d.scan ≠ .fresh → Phase.heading.Describes d
  lines : ∃ lines, d.buffer.take d.scan.pos = arriving lines ∧ d.scan = scanned lines
  bounded : d.buffer.length < greatestBody

theorem Rests.kept {d : Decoder} {phase : Phase} (rests : Rests d phase) : Kept d := by
  refine ⟨⟨phase, (rests.describes_iff phase).mpr rfl, fun other => (rests.describes_iff other).mp⟩,
    fun underWay => (rests.describes_iff _).mpr ?_, ?_, ?_⟩
  · cases rests with
    | heading fits inked => rfl
    | _ => exact absurd rfl underWay
  · cases rests with
    | @heading lines left fits inked => exact ⟨lines, List.take_left, rfl⟩
    | _ => exact ⟨[], rfl, rfl⟩
  · have header : greatestHeader < greatestBody := by decide
    cases rests with
    | @skipping n more => exact Nat.zero_lt_of_lt header
    | seeking short unnamed => exact Nat.lt_of_le_of_lt (Nat.le_trans short (by decide)) header
    | awaiting fits short => exact Nat.lt_of_lt_of_le short fits
    | heading fits inked => exact Nat.lt_of_le_of_lt fits header

/-- Whatever has been fed, the next call comes to an end, takes nothing that is not in the buffer, and
keeps no more than the phase it ends in needs. -/
theorem feed_footprint (pieces : List Bytes) (bytes : Bytes) :
    Runs ((feedAll fresh pieces).2.push bytes) ((feedAll fresh pieces).2.feed bytes).1
        ((feedAll fresh pieces).2.feed bytes).2 ∧
      Kept ((feedAll fresh pieces).2.feed bytes).2 := by
  obtain ⟨resting, phase, rests⟩ := feedAll_rests fresh_rests fresh_resting pieces
  obtain ⟨dropped, drains⟩ := feed_drains resting.tidy bytes
  obtain ⟨next, later⟩ := drains.rests (rests.push bytes)
  exact ⟨drains.runs (resting.tidy.push bytes), later.kept⟩

end Decoder
end ServerProbe.Framing
