import Mathlib.Data.List.DropRight
import ServerProbe.Proofs.Framing.Marker
/-!
One step of decoding, and what more bytes would change of it. A step that stops has lost nothing that
a later one needs. A step that goes on does the same with more bytes behind it, but for one: that
which drops a header block in the middle of a line takes with it what has arrived of the line.
-/

namespace ServerProbe.Framing

namespace Decoder

/-! ### States -/

/-- A decoder with more bytes in its buffer. -/
def push (d : Decoder) (more : Bytes) : Decoder := { d with buffer := d.buffer ++ more }

theorem push_nil (d : Decoder) : d.push [] = d := by rw [push, List.append_nil]

theorem push_push (d : Decoder) (xs ys : Bytes) : (d.push xs).push ys = d.push (xs ++ ys) := by
  simp only [push, List.append_assoc]

def reading (buffer : Bytes) (scan : Scan) : Decoder := ⟨buffer, none, 0, false, scan⟩

theorem reading_push (buffer : Bytes) (scan : Scan) (more : Bytes) :
    (reading buffer scan).push more = reading (buffer ++ more) scan := rfl

/-- A decoder that looks for the next header's name. -/
def seeking (buffer : Bytes) : Decoder := ⟨buffer, none, 0, true, .fresh⟩

/-- A decoder that has just dropped all it had. -/
def lost : Decoder := seeking []

/-- What a decoder in a run looks like: a scan under way is within the buffer and the limit. -/
structure Tidy (d : Decoder) : Prop where
  within : d.scan.pos ≤ d.buffer.length
  bounded : d.scan.pos ≤ greatestHeader
  idle : d.scan.pos = 0 ∨ d = reading d.buffer d.scan

theorem Tidy.push {d : Decoder} (h : d.Tidy) (more : Bytes) : (d.push more).Tidy := by
  refine ⟨?_, h.bounded, h.idle.imp_right fun reads => ?_⟩
  · simp only [Decoder.push, List.length_append]
    exact Nat.le_add_right_of_le h.within
  · rw [reads]
    rfl

theorem tidy_of_fresh {d : Decoder} (h : d.scan = .fresh) : d.Tidy := by
  have start : d.scan.pos = 0 := congrArg Scan.pos h
  exact ⟨start ▸ Nat.zero_le _, start ▸ Nat.zero_le _, .inl start⟩

theorem fresh_tidy : fresh.Tidy := tidy_of_fresh rfl

/-- Bounds the number of steps. -/
def measure (d : Decoder) : Nat := 2 * d.buffer.length + if d.awaited.isSome then 1 else 0

/-! ### The step -/

/-- What is left of the buffer once nothing is skipped, from the next header's name on if that has to
be found first. -/
def found? (d : Decoder) : Option Bytes :=
  if d.resyncing then fromMarker? (d.buffer.drop d.skip) else some (d.buffer.drop d.skip)

theorem advance_eq (d : Decoder) : d.advance =
    if d.buffer.length < d.skip then
      (false, [], { d with buffer := [], skip := d.skip - d.buffer.length })
    else
      match d.found? with
      | none => (false, [], { d with buffer := markerTail (d.buffer.drop d.skip), skip := 0 })
      | some rest =>
        match d.awaited with
        | some n =>
          if rest.length < n then (false, [], ⟨rest, some n, 0, false, d.scan⟩)
          else (true, [decodeBody (rest.take n)], reading (rest.drop n) d.scan)
        | none => (reading rest d.scan).takeHeader := by
  obtain ⟨buffer, awaited, skip, resyncing, scan⟩ := d
  unfold advance dropSkipped
  by_cases short : buffer.length < skip
  · have least : min skip buffer.length = buffer.length := Nat.min_eq_right (Nat.le_of_lt short)
    simp only [least, if_pos short, List.drop_length]
    rw [if_pos (Nat.sub_pos_of_lt short)]
  · have least : min skip buffer.length = skip := Nat.min_eq_left (Nat.le_of_not_lt short)
    simp only [least, if_neg short, Nat.sub_self, Nat.lt_irrefl, if_false, resync, found?]
    cases resyncing with
    | false => cases awaited <;> rfl
    | true =>
        simp only [if_true]
        cases fromMarker? (buffer.drop skip) with
        | none => rfl
        | some rest => cases awaited <;> rfl

theorem advance_found {d : Decoder} {rest : Bytes} (enough : d.skip ≤ d.buffer.length)
    (found : d.found? = some rest) :
    d.advance = (⟨rest, d.awaited, 0, false, d.scan⟩ : Decoder).advance := by
  have ready : (⟨rest, d.awaited, 0, false, d.scan⟩ : Decoder).skip ≤
      (⟨rest, d.awaited, 0, false, d.scan⟩ : Decoder).buffer.length := Nat.zero_le _
  rw [advance_eq d, advance_eq ⟨_, _, _, _, _⟩, if_neg (Nat.not_lt.mpr enough),
    if_neg (Nat.not_lt.mpr ready), found]
  rfl

theorem advance_skips {d : Decoder} (short : d.buffer.length < d.skip) :
    d.advance = (false, [], { d with buffer := [], skip := d.skip - d.buffer.length }) := by
  rw [advance_eq, if_pos short]

theorem advance_seeks {d : Decoder} (enough : d.skip ≤ d.buffer.length) (none : d.found? = none) :
    d.advance =
      (false, [], { d with buffer := markerTail (d.buffer.drop d.skip), skip := 0 }) := by
  rw [advance_eq, if_neg (Nat.not_lt.mpr enough), none]

theorem advance_awaits {d : Decoder} {rest : Bytes} {n : Nat} (enough : d.skip ≤ d.buffer.length)
    (found : d.found? = some rest) (awaited : d.awaited = some n) (short : rest.length < n) :
    d.advance = (false, [], ⟨rest, some n, 0, false, d.scan⟩) := by
  rw [advance_eq, if_neg (Nat.not_lt.mpr enough), found, awaited]
  exact if_pos short

theorem advance_body {d : Decoder} {rest : Bytes} {n : Nat} (enough : d.skip ≤ d.buffer.length)
    (found : d.found? = some rest) (awaited : d.awaited = some n) (whole : n ≤ rest.length) :
    d.advance = (true, [decodeBody (rest.take n)], reading (rest.drop n) d.scan) := by
  rw [advance_eq, if_neg (Nat.not_lt.mpr enough), found, awaited]
  exact if_neg (Nat.not_lt.mpr whole)

theorem advance_reads {d : Decoder} {rest : Bytes} (enough : d.skip ≤ d.buffer.length)
    (found : d.found? = some rest) (free : d.awaited = none) :
    d.advance = (reading rest d.scan).takeHeader := by
  rw [advance_eq, if_neg (Nat.not_lt.mpr enough), found, free]

/-- What follows a search depends on what it found, and else on what it left. -/
theorem advance_congr {d e : Decoder} (hd : d.skip ≤ d.buffer.length) (he : e.skip ≤ e.buffer.length)
    (found : d.found? = e.found?)
    (tail : d.found? = none →
      markerTail (d.buffer.drop d.skip) = markerTail (e.buffer.drop e.skip))
    (awaited : d.awaited = e.awaited) (resyncing : d.resyncing = e.resyncing)
    (scan : d.scan = e.scan) : d.advance = e.advance := by
  cases here : d.found? with
  | none =>
      rw [advance_seeks hd here, advance_seeks he (found ▸ here), tail here, awaited, resyncing, scan]
  | some rest =>
      rw [advance_eq d, advance_eq e, if_neg (Nat.not_lt.mpr hd), if_neg (Nat.not_lt.mpr he), ← found,
        awaited, scan, here]

theorem reading_advance (buffer : Bytes) (scan : Scan) :
    (reading buffer scan).advance = (reading buffer scan).takeHeader :=
  advance_reads (Nat.zero_le _) rfl rfl

/-- A header block without the blank lines before it. -/
def strip (buffer : Bytes) (scan : Scan) : Bytes :=
  if scan.pos == 0 then buffer.dropWhile isLineEnd else buffer

theorem takeHeader_eq (buffer : Bytes) (scan : Scan) : (reading buffer scan).takeHeader =
    match scanHeader (strip buffer scan) scan with
    | (.incomplete, next) => (false, [], reading (strip buffer scan) next)
    | (.complete n consumed, next) =>
      if greatestBody < n then
        (true, [.error (.frame (.bodyTooLong n))],
          { reading ((strip buffer scan).drop consumed) next with skip := n })
      else
        (true, [], { reading ((strip buffer scan).drop consumed) next with awaited := some n })
    | (.invalid fault consumed, next) =>
      (true, [.error (.frame fault)],
        { reading ((strip buffer scan).drop consumed) next with resyncing := true }) := by
  have stripped : (reading buffer scan).dropBlankLines = reading (strip buffer scan) scan := by
    unfold dropBlankLines strip
    split <;> simp_all [reading]
  rw [takeHeader, stripped]
  rfl

/-! ### Blank lines -/

theorem strip_suffix (buffer : Bytes) (scan : Scan) : strip buffer scan <:+ buffer := by
  unfold strip
  split
  · exact List.dropWhile_suffix _
  · exact List.suffix_refl _

theorem strip_of_pos {scan : Scan} (h : scan.pos ≠ 0) (buffer : Bytes) : strip buffer scan = buffer := by
  simp only [strip, beq_iff_eq, h, if_false]

theorem strip_of_head {b : UInt8} {bs : Bytes} {scan : Scan} (h : isLineEnd b = false) :
    strip (b :: bs) scan = b :: bs := by
  rw [strip, List.dropWhile_cons_of_neg (Bool.not_eq_true _ ▸ h), ite_self]

/-- Blank lines that are dropped before more bytes come would be dropped with them. -/
theorem strip_append {buffer : Bytes} {scan : Scan} (rest : strip buffer scan ≠ []) (more : Bytes) :
    strip (buffer ++ more) scan = strip buffer scan ++ more := by
  unfold strip at rest ⊢
  split
  · rename_i start
    rw [if_pos start] at rest
    rw [List.dropWhile_append, if_neg (by simpa using rest)]
  · rfl

theorem strip_append_nil {buffer : Bytes} {scan : Scan} (start : scan.pos = 0)
    (nothing : strip buffer scan = []) (more : Bytes) :
    strip (buffer ++ more) scan = strip more scan := by
  simp only [strip, start, beq_self_eq_true, if_true] at nothing ⊢
  rw [List.dropWhile_append, if_pos (by simpa using nothing)]

/-- A block is stripped of blank lines once. -/
theorem strip_strip {buffer : Bytes} {scan next : Scan} (rest : strip buffer scan ≠ [])
    (later : scan.pos ≤ next.pos) (more : Bytes) :
    strip (strip buffer scan ++ more) next = strip buffer scan ++ more := by
  by_cases start : next.pos = 0
  · have again : strip (strip buffer scan) next = strip buffer scan := by
      have first : scan.pos = 0 := Nat.le_zero.mp (start ▸ later)
      simp only [strip, start, first, beq_self_eq_true, if_true]
      exact List.dropWhile_idempotent _ buffer
    rw [strip_append (by rwa [again]), again]
  · exact strip_of_pos start _

/-! ### Steps that stop -/

/-- A step that stops, and how the decoder is left: more bytes find in it what they would have found. -/
structure Stopped (d : Decoder) (out : List Decoded) (e : Decoder) : Prop where
  silent : out = []
  tidy : e.Tidy
  mode : e.resyncing = true → d.resyncing = true
  more : ∀ more, (d.push more).advance = (e.push more).advance

theorem takeHeader_stopped {buffer : Bytes} {scan : Scan} {out : List Decoded} {e : Decoder}
    (within : scan.pos ≤ buffer.length) (h : (reading buffer scan).takeHeader = (false, out, e)) :
    Stopped (reading buffer scan) out e := by
  have scans := scanHeader_scans (strip buffer scan) scan
  rw [takeHeader_eq] at h
  cases answer : scanHeader (strip buffer scan) scan with
  | mk header next =>
      rw [answer] at h scans
      dsimp only at h scans
      cases header with
      | complete n consumed =>
          dsimp only at h
          split at h <;> cases h
      | invalid fault consumed => cases h
      | incomplete =>
          obtain ⟨-, same⟩ := Prod.mk.inj h
          obtain ⟨rfl, rfl⟩ := Prod.mk.inj same
          obtain ⟨done, left, split, unended, pos, fits, resumes⟩ := scans.resume
          have start : scan.pos ≤ (strip buffer scan).length := by
            by_cases first : scan.pos = 0
            · omega
            · rwa [strip_of_pos first]
          have stop : next.pos ≤ (strip buffer scan).length := by
            have size := congrArg List.length split
            rw [List.length_drop, List.length_append] at size
            omega
          refine ⟨rfl, ⟨stop, Nat.le_trans (Nat.le_add_right _ _) fits, .inr rfl⟩,
            fun again => (by cases again), fun more => ?_⟩
          rw [reading_push, reading_push, reading_advance, reading_advance, takeHeader_eq, takeHeader_eq]
          by_cases nothing : strip buffer scan = []
          · have first : scan.pos = 0 := by simpa [nothing] using start
            have same : next = scan := by
              rw [nothing, List.drop_nil] at scans
              exact scans.eq_of_nil
            rw [strip_append_nil first nothing, nothing, same, List.nil_append]
          · rw [strip_append nothing, strip_strip nothing (by omega)]
            have later := scanHeader_scans (strip buffer scan ++ more) next
            have here : (strip buffer scan ++ more).drop next.pos = left ++ more := by
              rw [List.drop_append_of_le_length stop, pos, ← List.drop_drop, split, List.drop_left]
            rw [here] at later
            have whole := resumes later
            rw [← List.drop_append_of_le_length start] at whole
            rw [whole.scanHeader_eq]

theorem found?_suffix {d : Decoder} {rest : Bytes} (h : d.found? = some rest) : rest <:+ d.buffer := by
  unfold found? at h
  split at h
  · exact (fromMarker?_suffix h).1.trans (List.drop_suffix _ _)
  · exact Option.some.inj h ▸ List.drop_suffix _ _

theorem found?_push {d : Decoder} {rest : Bytes} (enough : d.skip ≤ d.buffer.length)
    (h : d.found? = some rest) (more : Bytes) : (d.push more).found? = some (rest ++ more) := by
  unfold found? at h ⊢
  simp only [push, List.drop_append_of_le_length enough]
  split at h
  · rename_i seeks
    rw [if_pos seeks]
    exact fromMarker?_append h more
  · rename_i free
    rw [if_neg free, Option.some.inj h]

theorem push_enough {d : Decoder} (enough : d.skip ≤ d.buffer.length) (more : Bytes) :
    (d.push more).skip ≤ (d.push more).buffer.length := by
  simp only [push, List.length_append]
  exact Nat.le_add_right_of_le enough

theorem Tidy.start {d : Decoder} (h : d.Tidy) (busy : d ≠ reading d.buffer d.scan) : d.scan.pos = 0 :=
  h.idle.resolve_right busy

theorem Tidy.of_start {d : Decoder} (h : d.scan.pos = 0) : d.Tidy :=
  ⟨h ▸ Nat.zero_le _, h ▸ Nat.zero_le _, .inl h⟩

theorem Tidy.reads {d : Decoder} (h : d.Tidy) {rest : Bytes} (found : d.found? = some rest) :
    d.scan.pos ≤ rest.length := by
  rcases h.idle with start | reads
  · rw [start]
    exact Nat.zero_le _
  · have whole : rest = d.buffer := by
      rw [reads] at found
      exact (Option.some.inj found).symm
    rw [whole]
    exact h.within

theorem advance_stopped {d e : Decoder} {out : List Decoded} (tidy : d.Tidy)
    (h : d.advance = (false, out, e)) : Stopped d out e := by
  -- A decoder stops in a body that is skipped, before a name, in a header or in a body that is read.
  by_cases short : d.buffer.length < d.skip
  · have start : d.scan.pos = 0 := tidy.start fun reads => by
      rw [reads] at short
      exact absurd short (Nat.not_lt_zero _)
    rw [advance_skips short] at h
    obtain ⟨-, same⟩ := Prod.mk.inj h
    obtain ⟨rfl, rfl⟩ := Prod.mk.inj same
    refine ⟨rfl, .of_start start, id, fun more => ?_⟩
    have size : (d.push more).buffer.length = d.buffer.length + more.length := List.length_append
    by_cases still : more.length < d.skip - d.buffer.length
    · rw [advance_skips (show (d.push more).buffer.length < d.skip by omega), advance_skips still, size,
        ← Nat.sub_sub]
      rfl
    · have same : (d.push more).buffer.drop d.skip = more.drop (d.skip - d.buffer.length) := by
        rw [push, List.drop_append, List.drop_of_length_le (Nat.le_of_lt short), List.nil_append]
      refine advance_congr (show d.skip ≤ _ by omega) (Nat.le_of_not_lt still) ?_ (fun _ => ?_)
        rfl rfl rfl
      · unfold found?
        rw [show (d.push more).skip = d.skip from rfl, same]
        rfl
      · rw [show (d.push more).skip = d.skip from rfl, same]
        rfl
  · have enough := Nat.le_of_not_lt short
    cases found : d.found? with
    | none =>
        have start : d.scan.pos = 0 := tidy.start fun reads => by
          rw [reads] at found
          cases found
        rw [advance_seeks enough found] at h
        obtain ⟨-, same⟩ := Prod.mk.inj h
        obtain ⟨rfl, rfl⟩ := Prod.mk.inj same
        refine ⟨rfl, .of_start start, id, fun more => ?_⟩
        have seeks : d.resyncing = true ∧ fromMarker? (d.buffer.drop d.skip) = none := by
          unfold found? at found
          split at found
          · exact ⟨‹_›, found⟩
          · cases found
        have left : (d.push more).buffer.drop d.skip = d.buffer.drop d.skip ++ more :=
          List.drop_append_of_le_length enough
        have here : (d.push more).found? = fromMarker? (d.buffer.drop d.skip ++ more) :=
          (if_pos seeks.1).trans (congrArg fromMarker? left)
        refine advance_congr (push_enough enough more) (Nat.zero_le _) ?_ (fun _ => ?_) rfl rfl rfl
        · rw [here, fromMarker?_markerTail seeks.2]
          exact (if_pos seeks.1).symm
        · rw [show (d.push more).skip = d.skip from rfl, left]
          exact markerTail_append _ more
    | some rest =>
        cases awaited : d.awaited with
        | none =>
            rw [advance_reads enough found awaited] at h
            have stopped := takeHeader_stopped (tidy.reads found) h
            refine ⟨stopped.silent, stopped.tidy, fun again => ?_, fun more => ?_⟩
            · cases stopped.mode again
            · rw [← stopped.more more, reading_push, reading_advance,
                advance_reads (push_enough enough more) (found?_push enough found more) awaited]
              rfl
        | some n =>
            by_cases whole : n ≤ rest.length
            · rw [advance_body enough found awaited whole] at h
              cases h
            · have start : d.scan.pos = 0 := tidy.start fun reads => by
                rw [reads] at awaited
                cases awaited
              rw [advance_awaits enough found awaited (Nat.lt_of_not_le whole)] at h
              obtain ⟨-, same⟩ := Prod.mk.inj h
              obtain ⟨rfl, rfl⟩ := Prod.mk.inj same
              refine ⟨rfl, .of_start start, fun again => (by cases again), fun more => ?_⟩
              rw [advance_found (push_enough enough more) (found?_push enough found more),
                show (d.push more).awaited = some n from awaited]
              rfl

/-! ### Steps that go on -/

abbrev tooLong : Decoded := .error (.frame .headerTooLong)

/-- A step that drops a header block in the middle of a line. What has arrived of the line goes too. -/
structure Drops (d : Decoder) (out : List Decoded) (e : Decoder) : Prop where
  fault : out = [tooLong]
  lost : e = lost
  pending : d.buffer ≠ []
  midLine : d.buffer.getLast? ≠ some lineFeed
  more : ∀ more, (d.push more).advance = (true, [tooLong], Decoder.lost.push (afterLine more))

/-- A step that goes on whatever follows. -/
structure Keeps (d : Decoder) (out : List Decoded) (e : Decoder) : Prop where
  more : ∀ more, (d.push more).advance = (true, out, e.push more)
  ended : e = lost → d.buffer.getLast? = some lineFeed

/-- A step that goes on, and how the decoder is left. -/
structure Went (d : Decoder) (out : List Decoded) (e : Decoder) : Prop where
  tidy : e.Tidy
  fewer : e.measure < d.measure
  suffix : e.buffer <:+ d.buffer
  mode : e.resyncing = false ∨ out ≠ [] ∧ e = seeking e.buffer
  cases : Keeps d out e ∨ Drops d out e

theorem getLast?_of_suffix {l m : Bytes} (suffix : l <:+ m) (some : l ≠ []) :
    m.getLast? = l.getLast? := by
  obtain ⟨before, rfl⟩ := suffix
  rw [List.getLast?_append, List.getLast?_eq_some_getLast some]
  rfl

/-- A header block that ends with a line is read in the same way whatever follows. -/
theorem went_of_line {buffer block left : Bytes} {scan : Scan} {out : List Decoded} {e : Decoder}
    (split : strip buffer scan = block ++ lineFeed :: left) (held : e.buffer = left)
    (start : e.scan = .fresh) (mode : e.resyncing = false ∨ out ≠ [] ∧ e = seeking e.buffer)
    (more : ∀ more, (reading (buffer ++ more) scan).takeHeader = (true, out, e.push more)) :
    Went (reading buffer scan) out e := by
  have suffix : lineFeed :: left <:+ buffer :=
    (split ▸ List.suffix_append _ _ : lineFeed :: left <:+ strip buffer scan).trans
      (strip_suffix buffer scan)
  refine ⟨tidy_of_fresh start, ?_, ?_, mode, .inl ⟨fun more' => ?_, fun gone => ?_⟩⟩
  · have size := suffix.length_le
    rw [List.length_cons] at size
    have least : (if e.awaited.isSome then 1 else 0) ≤ 1 := by split <;> omega
    simp only [measure, held, reading]
    omega
  · rw [held]
    exact (List.suffix_cons _ _).trans suffix
  · rw [reading_push, reading_advance]
    exact more more'
  · have none : left = [] := by
      rw [← held, gone]
      rfl
    rw [none] at suffix
    exact getLast?_of_suffix suffix (by simp)

theorem takeHeader_went {buffer : Bytes} {scan : Scan} {out : List Decoded} {e : Decoder}
    (within : scan.pos ≤ buffer.length) (bounded : scan.pos ≤ greatestHeader)
    (h : (reading buffer scan).takeHeader = (true, out, e)) : Went (reading buffer scan) out e := by
  have start : scan.pos ≤ (strip buffer scan).length := by
    by_cases first : scan.pos = 0
    · omega
    · rwa [strip_of_pos first]
  rw [takeHeader_eq] at h
  cases answer : scanHeader (strip buffer scan) scan with
  | mk header next =>
      rw [answer] at h
      by_cases waits : header = .incomplete
      · subst waits
        cases h
      obtain ⟨rfl, ⟨block, left, split, ends, same⟩ | ⟨done, left, split, unended, short, fault, goes⟩⟩ :=
        scanHeader_more start answer waits
      · have some : strip buffer scan ≠ [] := by
          rw [split]
          exact List.append_ne_nil_of_right_ne_nil _ (List.cons_ne_nil _ _)
        have drops : ∀ more, (strip buffer scan ++ more).drop (block.length + 1) = left ++ more := by
          intro more
          rw [split, List.append_assoc, List.drop_append, List.drop_of_length_le (Nat.le_succ _),
            Nat.add_sub_cancel_left]
          rfl
        have dropped := drops []
        rw [List.append_nil, List.append_nil] at dropped
        cases header with
        | incomplete => exact absurd rfl waits
        | complete n consumed =>
            obtain rfl : consumed = block.length + 1 := ends
            dsimp only at h
            rw [dropped] at h
            split at h
            · rename_i exceeds
              obtain ⟨-, same'⟩ := Prod.mk.inj h
              obtain ⟨rfl, rfl⟩ := Prod.mk.inj same'
              refine went_of_line split rfl rfl (.inl rfl) fun more => ?_
              rw [takeHeader_eq, strip_append some, same more]
              dsimp only
              rw [if_pos exceeds, drops]
              rfl
            · rename_i fits
              obtain ⟨-, same'⟩ := Prod.mk.inj h
              obtain ⟨rfl, rfl⟩ := Prod.mk.inj same'
              refine went_of_line split rfl rfl (.inl rfl) fun more => ?_
              rw [takeHeader_eq, strip_append some, same more]
              dsimp only
              rw [if_neg fits, drops]
              rfl
        | invalid fault consumed =>
            obtain rfl : consumed = block.length + 1 := ends
            dsimp only at h
            rw [dropped] at h
            obtain ⟨-, same'⟩ := Prod.mk.inj h
            obtain ⟨rfl, rfl⟩ := Prod.mk.inj same'
            refine went_of_line split rfl rfl (.inr ⟨List.cons_ne_nil _ _, rfl⟩) fun more => ?_
            rw [takeHeader_eq, strip_append some, same more]
            dsimp only
            rw [drops]
            rfl
      · subst fault
        -- The block was within the limit up to this line, so the line has begun.
        have some : left ≠ [] := fun none => absurd (short none) (Nat.not_lt.mpr bounded)
        have suffix : left <:+ buffer :=
          (split ▸ List.suffix_append _ _ : left <:+ strip buffer scan).trans (strip_suffix buffer scan)
        dsimp only at h
        rw [List.drop_length] at h
        obtain ⟨-, same'⟩ := Prod.mk.inj h
        obtain ⟨rfl, rfl⟩ := Prod.mk.inj same'
        have pending : buffer ≠ [] := by
          rintro rfl
          exact some (List.suffix_nil.mp suffix)
        refine ⟨tidy_of_fresh rfl, ?_, List.nil_suffix, .inr ⟨List.cons_ne_nil _ _, rfl⟩,
          .inr ⟨rfl, rfl, pending, ?_, ?_⟩⟩
        · have size := suffix.length_le
          have least := List.length_pos_iff.mpr some
          simp only [measure, reading, List.length_nil, Option.isSome_none, Bool.false_eq_true, if_false]
          omega
        · intro last
          have same := getLast?_of_suffix suffix some
          exact unended (List.mem_of_getLast? (same.symm.trans last))
        · intro more
          obtain ⟨gone, rest, whole⟩ := goes more
          have nonempty : strip buffer scan ≠ [] := by
            rw [split]
            exact List.append_ne_nil_of_right_ne_nil _ some
          have dropped : (strip buffer scan ++ more).drop ((strip buffer scan).length + gone.length) =
              afterLine more := by
            rw [List.drop_append, List.drop_of_length_le (Nat.le_add_right _ _), Nat.add_sub_cancel_left]
            conv => lhs; rw [rest]
            exact List.drop_left
          rw [reading_push, reading_advance, takeHeader_eq, strip_append nonempty, whole]
          dsimp only
          rw [dropped]
          rfl

theorem advance_went {d e : Decoder} {out : List Decoded} (tidy : d.Tidy)
    (h : d.advance = (true, out, e)) : Went d out e := by
  by_cases short : d.buffer.length < d.skip
  · rw [advance_skips short] at h
    cases h
  have enough := Nat.le_of_not_lt short
  cases found : d.found? with
  | none =>
      rw [advance_seeks enough found] at h
      cases h
  | some rest =>
      have suffix := found?_suffix found
      cases awaited : d.awaited with
      | some n =>
          by_cases whole : n ≤ rest.length
          · have start : d.scan.pos = 0 := tidy.start fun reads => by
              rw [reads] at awaited
              cases awaited
            rw [advance_body enough found awaited whole] at h
            obtain ⟨-, same⟩ := Prod.mk.inj h
            obtain ⟨rfl, rfl⟩ := Prod.mk.inj same
            refine ⟨.of_start start, ?_, (List.drop_suffix _ _).trans suffix, .inl rfl,
              .inl ⟨fun more => ?_, fun gone => (by cases congrArg Decoder.resyncing gone)⟩⟩
            · have size := ((List.drop_suffix n rest).trans suffix).length_le
              simp only [measure, reading, awaited, Option.isSome_none, Option.isSome_some,
                Bool.false_eq_true, if_false, if_true]
              omega
            · have longer : n ≤ (rest ++ more).length := by
                rw [List.length_append]
                omega
              rw [advance_body (push_enough enough more) (found?_push enough found more) awaited longer,
                List.take_append_of_le_length whole, List.drop_append_of_le_length whole]
              rfl
          · rw [advance_awaits enough found awaited (Nat.lt_of_not_le whole)] at h
            cases h
      | none =>
          rw [advance_reads enough found awaited] at h
          have went := takeHeader_went (tidy.reads found) tidy.bounded h
          have size : (reading rest d.scan).measure ≤ d.measure := by
            have size := suffix.length_le
            simp only [measure, reading, awaited, Option.isSome_none, Bool.false_eq_true, if_false]
            omega
          have some : rest ≠ [] := by
            rintro rfl
            exact absurd went.fewer (Nat.not_lt_zero _)
          have last : d.buffer.getLast? = rest.getLast? := getLast?_of_suffix suffix some
          have pushed : ∀ more, (d.push more).advance = ((reading rest d.scan).push more).advance := by
            intro more
            rw [reading_push, reading_advance,
              advance_reads (push_enough enough more) (found?_push enough found more) awaited]
            rfl
          refine ⟨went.tidy, Nat.lt_of_lt_of_le went.fewer size, went.suffix.trans suffix, went.mode, ?_⟩
          rcases went.cases with keeps | drops
          · exact .inl ⟨fun more => (pushed more).trans (keeps.more more),
              fun gone => last.trans (keeps.ended gone)⟩
          · have pending : d.buffer ≠ [] := by
              intro none
              rw [none] at suffix
              exact some (List.suffix_nil.mp suffix)
            exact .inr ⟨drops.fault, drops.lost, pending, fun ends => drops.midLine (last.symm.trans ends),
              fun more => (pushed more).trans (drops.more more)⟩

end Decoder
end ServerProbe.Framing
