import ServerProbe.Framing.Header
/-!
How a header block is read as it arrives. `Scans` says line by line what a scan comes to; a scan that
waits goes on where it stopped, and one that has ended is not changed by what follows.
-/

namespace ServerProbe.Framing

/-! ### Lines -/

theorem unended_cons {b : UInt8} {bs : Bytes} (h : lineFeed ∉ b :: bs) :
    (b == lineFeed) = false ∧ lineFeed ∉ bs :=
  ⟨beq_false_of_ne fun same => h (same ▸ List.mem_cons_self), fun held => h (List.mem_cons_of_mem _ held)⟩

theorem splitLine?_of_open {bs : Bytes} (h : lineFeed ∉ bs) : splitLine? bs = none := by
  induction bs with
  | nil => rfl
  | cons b bs ih =>
      obtain ⟨other, h⟩ := unended_cons h
      rw [splitLine?, other, ih h]
      rfl

theorem splitLine?_line {raw : Bytes} (h : lineFeed ∉ raw) (rest : Bytes) :
    splitLine? (raw ++ lineFeed :: rest) = some (raw, rest) := by
  induction raw with
  | nil => rfl
  | cons b raw ih =>
      obtain ⟨other, h⟩ := unended_cons h
      rw [List.cons_append, splitLine?, other, ih h]
      rfl

/-- Bytes are a part of a line, or a line and what follows it. -/
theorem line_cases (bs : Bytes) :
    lineFeed ∉ bs ∨ ∃ raw rest, bs = raw ++ lineFeed :: rest ∧ lineFeed ∉ raw := by
  by_cases held : lineFeed ∈ bs
  · obtain ⟨raw, rest, split, first⟩ := List.eq_append_cons_of_mem held
    exact .inr ⟨raw, rest, split, first⟩
  · exact .inl held

/-! ### Scans -/

/-- What a complete line does: it ends the block, or the scan goes on. -/
def takeLine (scan : Scan) (raw : Bytes) : Header ⊕ Scan :=
  let next := scan.pos + raw.length + 1
  if greatestHeader < next then .inl (.invalid .headerTooLong next)
  else if (stripReturn raw).isEmpty then
    match scan.length with
    | some n => .inl (.complete n next)
    | none => .inl (.invalid .lengthMissing next)
  else
    match readLine (stripReturn raw) with
    | .ok (some n) => .inr ⟨next, some n⟩
    | .ok none => .inr ⟨next, scan.length⟩
    | .error fault => .inl (.invalid fault next)

def Header.EndsAt (consumed : Nat) : Header → Prop
  | .incomplete => False
  | .complete _ k | .invalid _ k => k = consumed

theorem takeLine_ends {scan : Scan} {raw : Bytes} {header : Header}
    (h : takeLine scan raw = .inl header) : header.EndsAt (scan.pos + raw.length + 1) := by
  unfold takeLine at h
  dsimp only at h
  split at h
  · obtain rfl := Sum.inl.inj h
    rfl
  · split at h
    · split at h
      · obtain rfl := Sum.inl.inj h
        rfl
      · obtain rfl := Sum.inl.inj h
        rfl
    · split at h
      · cases h
      · cases h
      · obtain rfl := Sum.inl.inj h
        rfl

theorem takeLine_goes {scan next : Scan} {raw : Bytes} (h : takeLine scan raw = .inr next) :
    next.pos = scan.pos + raw.length + 1 ∧ next.pos ≤ greatestHeader := by
  unfold takeLine at h
  dsimp only at h
  split at h
  · cases h
  · rename_i fits
    split at h
    · split at h <;> cases h
    · split at h
      · obtain rfl := Sum.inr.inj h
        exact ⟨rfl, Nat.le_of_not_lt fits⟩
      · obtain rfl := Sum.inr.inj h
        exact ⟨rfl, Nat.le_of_not_lt fits⟩
      · cases h

/-- What the scan of the rest of a block comes to, and the scan after it. -/
inductive Scans : Bytes → Scan → Header → Scan → Prop
  | waits {rest : Bytes} {scan : Scan} (unended : lineFeed ∉ rest)
      (fits : scan.pos + rest.length ≤ greatestHeader) : Scans rest scan .incomplete scan
  | overflows {rest : Bytes} {scan : Scan} (unended : lineFeed ∉ rest)
      (long : greatestHeader < scan.pos + rest.length) :
      Scans rest scan (.invalid .headerTooLong (scan.pos + rest.length)) .fresh
  | ends {raw rest : Bytes} {scan : Scan} {header : Header} (line : lineFeed ∉ raw)
      (taken : takeLine scan raw = .inl header) : Scans (raw ++ lineFeed :: rest) scan header .fresh
  | goes {raw rest : Bytes} {scan next last : Scan} {header : Header} (line : lineFeed ∉ raw)
      (taken : takeLine scan raw = .inr next) (later : Scans rest next header last) :
      Scans (raw ++ lineFeed :: rest) scan header last

theorem scanLines_line {fuel : Nat} {raw : Bytes} (line : lineFeed ∉ raw) (rest : Bytes) (scan : Scan) :
    scanLines (fuel + 1) (raw ++ lineFeed :: rest) scan =
      match takeLine scan raw with
      | .inl header => (header, .fresh)
      | .inr next => scanLines fuel rest next := by
  rw [scanLines, splitLine?_line line]
  unfold takeLine
  dsimp only
  split
  · rfl
  · split
    · cases scan.length with
      | none => rfl
      | some n => rfl
    · cases readLine (stripReturn raw) with
      | error fault => rfl
      | ok length =>
          cases length with
          | none => rfl
          | some n => rfl

theorem Scans.scanLines_eq {rest : Bytes} {scan last : Scan} {header : Header}
    (h : Scans rest scan header last) {fuel : Nat} (enough : rest.length < fuel) :
    scanLines fuel rest scan = (header, last) := by
  induction h generalizing fuel with
  | waits unended fits =>
      obtain ⟨fuel, rfl⟩ := Nat.exists_eq_add_one_of_ne_zero (Nat.ne_zero_of_lt enough)
      rw [scanLines, splitLine?_of_open unended]
      exact if_neg (Nat.not_lt.mpr fits)
  | overflows unended long =>
      obtain ⟨fuel, rfl⟩ := Nat.exists_eq_add_one_of_ne_zero (Nat.ne_zero_of_lt enough)
      rw [scanLines, splitLine?_of_open unended]
      exact if_pos long
  | ends line taken =>
      obtain ⟨fuel, rfl⟩ := Nat.exists_eq_add_one_of_ne_zero (Nat.ne_zero_of_lt enough)
      rw [scanLines_line line, taken]
  | goes line taken later ih =>
      obtain ⟨fuel, rfl⟩ := Nat.exists_eq_add_one_of_ne_zero (Nat.ne_zero_of_lt enough)
      rw [scanLines_line line, taken]
      refine ih ?_
      rw [List.length_append, List.length_cons] at enough
      omega

theorem scans_total (rest : Bytes) (scan : Scan) : ∃ header last, Scans rest scan header last := by
  induction size : rest.length using Nat.strongRecOn generalizing rest scan with
  | ind n ih =>
      rcases line_cases rest with unended | ⟨raw, rest, rfl, line⟩
      · by_cases fits : scan.pos + rest.length ≤ greatestHeader
        · exact ⟨_, _, .waits unended fits⟩
        · exact ⟨_, _, .overflows unended (Nat.lt_of_not_le fits)⟩
      · cases taken : takeLine scan raw with
        | inl header => exact ⟨_, _, .ends line taken⟩
        | inr next =>
            rw [List.length_append, List.length_cons] at size
            obtain ⟨header, last, later⟩ := ih rest.length (by omega) rest next rfl
            exact ⟨header, last, .goes line taken later⟩

theorem Scans.scanHeader_eq {buffer : Bytes} {scan last : Scan} {header : Header}
    (h : Scans (buffer.drop scan.pos) scan header last) : scanHeader buffer scan = (header, last) := by
  refine h.scanLines_eq ?_
  rw [List.length_drop]
  omega

theorem scanHeader_scans (buffer : Bytes) (scan : Scan) :
    Scans (buffer.drop scan.pos) scan (scanHeader buffer scan).1 (scanHeader buffer scan).2 := by
  obtain ⟨header, last, scans⟩ := scans_total (buffer.drop scan.pos) scan
  rw [scans.scanHeader_eq]
  exact scans

/-! ### More bytes -/

theorem Scans.eq_of_nil {scan last : Scan} (h : Scans [] scan .incomplete last) : last = scan := by
  generalize nothing : ([] : Bytes) = rest at h
  cases h with
  | waits unended fits => rfl
  | ends line taken => cases (takeLine_ends taken)
  | goes line taken later => exact absurd nothing (by simp)

/-- A scan that waits goes on where it stopped. -/
theorem Scans.resume {rest : Bytes} {scan last : Scan} (h : Scans rest scan .incomplete last) :
    ∃ done left, rest = done ++ left ∧ lineFeed ∉ left ∧ last.pos = scan.pos + done.length ∧
      last.pos + left.length ≤ greatestHeader ∧
      ∀ {more header next}, Scans (left ++ more) last header next →
        Scans (rest ++ more) scan header next := by
  generalize waiting : Header.incomplete = header at h
  induction h with
  | waits unended fits => exact ⟨[], _, rfl, unended, rfl, fits, fun later => later⟩
  | overflows unended long => cases waiting
  | ends line taken =>
      subst waiting
      exact (takeLine_ends taken).elim
  | @goes raw rest scan next last header line taken later ih =>
      obtain ⟨done, left, rfl, unended, pos, fits, resumes⟩ := ih waiting
      refine ⟨raw ++ lineFeed :: done, left, by simp, unended, ?_, fits, fun scans => ?_⟩
      · rw [pos, (takeLine_goes taken).1, List.length_append, List.length_cons]
        omega
      · rw [List.append_assoc, List.cons_append]
        exact .goes line taken (resumes scans)

/-- What comes after the first line feed. -/
def afterLine : Bytes → Bytes
  | [] => []
  | b :: bs => if b == lineFeed then bs else afterLine bs

theorem afterLine_of_open {bs : Bytes} (h : lineFeed ∉ bs) : afterLine bs = [] := by
  induction bs with
  | nil => rfl
  | cons b bs ih =>
      obtain ⟨other, h⟩ := unended_cons h
      rw [afterLine, other, ih h]
      rfl

theorem afterLine_line {raw : Bytes} (h : lineFeed ∉ raw) (rest : Bytes) :
    afterLine (raw ++ lineFeed :: rest) = rest := by
  induction raw with
  | nil => rfl
  | cons b raw ih =>
      obtain ⟨other, h⟩ := unended_cons h
      rw [List.cons_append, afterLine, other, ih h]
      rfl

/-- A scan that has ended came to the end of a line, and is not changed by what follows; or it gave up
in the middle of one, and then gives up the rest of the line too, as far as it is there. -/
theorem Scans.more {rest : Bytes} {scan last : Scan} {header : Header} (h : Scans rest scan header last)
    (ended : header ≠ .incomplete) :
    last = .fresh ∧
      ((∃ block left, rest = block ++ lineFeed :: left ∧
          header.EndsAt (scan.pos + block.length + 1) ∧
          ∀ more, Scans (rest ++ more) scan header .fresh) ∨
        (∃ done left, rest = done ++ left ∧ lineFeed ∉ left ∧ (left = [] → greatestHeader < scan.pos) ∧
          header = .invalid .headerTooLong (scan.pos + rest.length) ∧
          ∀ more, ∃ gone, more = gone ++ afterLine more ∧
            Scans (rest ++ more) scan
              (.invalid .headerTooLong (scan.pos + rest.length + gone.length)) .fresh)) := by
  induction h with
  | waits unended fits => exact absurd rfl ended
  | @overflows rest scan unended long =>
      refine ⟨rfl, .inr ⟨[], rest, rfl, unended, fun none => ?_, rfl, fun more => ?_⟩⟩
      · subst none
        exact long
      · rcases line_cases more with still | ⟨raw, later, rfl, line⟩
        · refine ⟨more, by rw [afterLine_of_open still, List.append_nil], ?_⟩
          have size : scan.pos + rest.length + more.length = scan.pos + (rest ++ more).length := by
            rw [List.length_append, Nat.add_assoc]
          rw [size]
          refine .overflows (fun held => ?_) ?_
          · exact (List.mem_append.mp held).elim unended still
          · omega
        · refine ⟨raw ++ [lineFeed], by rw [afterLine_line line, List.append_assoc]; rfl, ?_⟩
          -- The line ends in the new bytes, and is too long as a whole.
          have ended : takeLine scan (rest ++ raw) = .inl (.invalid .headerTooLong
              (scan.pos + rest.length + (raw ++ [lineFeed]).length)) := by
            have size : scan.pos + (rest ++ raw).length + 1 =
                scan.pos + rest.length + (raw ++ [lineFeed]).length := by
              simp only [List.length_append, List.length_singleton]
              omega
            rw [takeLine, size]
            exact if_pos (by omega)
          rw [← List.append_assoc]
          refine .ends (fun held => ?_) ended
          exact (List.mem_append.mp held).elim unended line
  | @ends raw rest scan header line taken =>
      refine ⟨rfl, .inl ⟨raw, rest, rfl, takeLine_ends taken, fun more => ?_⟩⟩
      rw [List.append_assoc, List.cons_append]
      exact .ends line taken
  | @goes raw rest scan next last header line taken later ih =>
      obtain ⟨pos, fits⟩ := takeLine_goes taken
      obtain ⟨rfl, ⟨block, left, rfl, ends, same⟩ | ⟨done, left, rfl, unended, short, rfl, goes⟩⟩ :=
        ih ended
      · refine ⟨rfl, .inl ⟨raw ++ lineFeed :: block, left, by simp, ?_, fun more => ?_⟩⟩
        · rw [pos] at ends
          have size : scan.pos + (raw ++ lineFeed :: block).length + 1 =
              scan.pos + raw.length + 1 + block.length + 1 := by
            rw [List.length_append, List.length_cons]
            omega
          rw [size]
          exact ends
        · rw [List.append_assoc, List.cons_append]
          exact .goes line taken (same more)
      · have size : next.pos + (done ++ left).length =
            scan.pos + (raw ++ lineFeed :: (done ++ left)).length := by
          simp only [pos, List.length_append, List.length_cons]
          omega
        refine ⟨rfl, .inr ⟨raw ++ lineFeed :: done, left, by simp, unended, fun none => ?_, ?_, fun more => ?_⟩⟩
        · exact absurd (short none) (Nat.not_lt.mpr fits)
        · rw [size]
        · obtain ⟨gone, split, scans⟩ := goes more
          refine ⟨gone, split, ?_⟩
          rw [← size, List.append_assoc, List.cons_append]
          exact .goes line taken scans

theorem scanHeader_more {buffer : Bytes} {scan last : Scan} {header : Header}
    (within : scan.pos ≤ buffer.length) (h : scanHeader buffer scan = (header, last))
    (ended : header ≠ .incomplete) :
    last = .fresh ∧
      ((∃ block left, buffer = block ++ lineFeed :: left ∧ header.EndsAt (block.length + 1) ∧
          ∀ more, scanHeader (buffer ++ more) scan = (header, .fresh)) ∨
        (∃ done left, buffer = done ++ left ∧ lineFeed ∉ left ∧
          (left = [] → greatestHeader < scan.pos) ∧ header = .invalid .headerTooLong buffer.length ∧
          ∀ more, ∃ gone, more = gone ++ afterLine more ∧ scanHeader (buffer ++ more) scan =
            (.invalid .headerTooLong (buffer.length + gone.length), .fresh))) := by
  have scans := scanHeader_scans buffer scan
  rw [h] at scans
  dsimp only at scans
  have whole : buffer.take scan.pos ++ buffer.drop scan.pos = buffer := List.take_append_drop _ _
  have taken : (buffer.take scan.pos).length = scan.pos := List.length_take_of_le within
  have size : scan.pos + (buffer.drop scan.pos).length = buffer.length := by
    rw [List.length_drop]
    omega
  have moved : ∀ {more header}, Scans (buffer.drop scan.pos ++ more) scan header .fresh →
      scanHeader (buffer ++ more) scan = (header, .fresh) := by
    intro more header scans
    rw [← List.drop_append_of_le_length within] at scans
    exact scans.scanHeader_eq
  obtain ⟨fresh, ⟨block, left, split, ends, same⟩ | ⟨done, left, split, unended, short, fault, goes⟩⟩ :=
    scans.more ended
  · refine ⟨fresh, .inl ⟨buffer.take scan.pos ++ block, left, ?_, ?_, fun more => moved (same more)⟩⟩
    · rw [List.append_assoc, ← split, whole]
    · rwa [List.length_append, taken]
  · refine ⟨fresh, .inr ⟨buffer.take scan.pos ++ done, left, ?_, unended, short, ?_, fun more => ?_⟩⟩
    · rw [List.append_assoc, ← split, whole]
    · rw [fault, size]
    · obtain ⟨gone, rest, scans⟩ := goes more
      rw [size] at scans
      exact ⟨gone, rest, moved scans⟩

end ServerProbe.Framing
