import Mathlib.Data.List.Induction
import ServerProbe.Proofs.Framing.Header
import ServerProbe.Proofs.Text.Plain
/-!
The grammar of header blocks: header lines, and then the line that ends the block, in one way or
another. A scan that goes on where earlier ones have stopped comes to what this grammar says of all
the bytes, whatever parts they arrived in.
-/

namespace ServerProbe.Text

theorem splitAt?_eq_some {mark : Char} {cs key value : List Char} :
    splitAt? mark cs = some (key, value) ↔ cs = key ++ mark :: value ∧ mark ∉ key := by
  constructor
  · intro h
    by_cases held : mark ∈ cs
    · obtain ⟨before, after, split, first⟩ := List.eq_append_cons_of_mem held
      rw [split, splitAt?_mark first] at h
      obtain ⟨rfl, rfl⟩ := Prod.mk.inj (Option.some.inj h)
      exact ⟨split, first⟩
    · rw [splitAt?_of_not_mem held] at h
      cases h
  · rintro ⟨rfl, first⟩
    exact splitAt?_mark first value

theorem splitAt?_eq_none {mark : Char} {cs : List Char} : splitAt? mark cs = none ↔ mark ∉ cs := by
  constructor
  · intro h held
    obtain ⟨before, after, rfl, first⟩ := List.eq_append_cons_of_mem held
    rw [splitAt?_mark first] at h
    cases h
  · exact splitAt?_of_not_mem

end ServerProbe.Text

namespace ServerProbe.Framing

/-! ### Lines -/

/-- What a header line tells of the length: it is text with a colon, and only a line with the right
name tells a length, in digits. -/
inductive Tells (raw : Bytes) : Option Nat → Prop
  | other {text : String} {key value : List Char} (decoded : Utf8.decode? (stripReturn raw) = some text)
      (split : text.toList = key ++ ':' :: value) (first : ':' ∉ key)
      (named : Text.sameLetters (Text.trim key) lengthName = false) : Tells raw none
  | length {text : String} {key value : List Char} {n : Nat}
      (decoded : Utf8.decode? (stripReturn raw) = some text)
      (split : text.toList = key ++ ':' :: value) (first : ':' ∉ key)
      (named : Text.sameLetters (Text.trim key) lengthName = true)
      (digits : lengthValue? (Text.trim value) = some n) : Tells raw (some n)

/-- Why a line that is not empty is no header line. -/
inductive Spoils (raw : Bytes) : FrameFault → Prop
  | notText (broken : Utf8.decode? (stripReturn raw) = none) : Spoils raw .lineNotText
  | colonless {text : String} (decoded : Utf8.decode? (stripReturn raw) = some text)
      (plain : ':' ∉ text.toList) : Spoils raw (.lineWithoutColon text)
  | length {text : String} {key value : List Char}
      (decoded : Utf8.decode? (stripReturn raw) = some text)
      (split : text.toList = key ++ ':' :: value) (first : ':' ∉ key)
      (named : Text.sameLetters (Text.trim key) lengthName = true)
      (digits : lengthValue? (Text.trim value) = none) :
      Spoils raw (.lengthInvalid (String.ofList (Text.trim value)))

theorem readLine_eq_ok {raw : Bytes} {length : Option Nat} :
    readLine (stripReturn raw) = .ok length ↔ Tells raw length := by
  constructor
  · intro h
    unfold readLine at h
    split at h
    · cases h
    · rename_i text decoded
      split at h
      · cases h
      · rename_i key value split
        obtain ⟨split, first⟩ := Text.splitAt?_eq_some.mp split
        split at h
        · rename_i named
          split at h
          · rename_i n digits
            exact Except.ok.inj h ▸ .length decoded split first named digits
          · cases h
        · rename_i named
          exact Except.ok.inj h ▸ .other decoded split first (Bool.eq_false_iff.mpr named)
  · intro tells
    cases tells with
    | other decoded split first named =>
        simp only [readLine, decoded, Text.splitAt?_eq_some.mpr ⟨split, first⟩, named,
          Bool.false_eq_true, if_false]
    | length decoded split first named digits =>
        simp only [readLine, decoded, Text.splitAt?_eq_some.mpr ⟨split, first⟩, named, if_true, digits]

theorem readLine_eq_error {raw : Bytes} {fault : FrameFault} :
    readLine (stripReturn raw) = .error fault ↔ Spoils raw fault := by
  constructor
  · intro h
    unfold readLine at h
    split at h
    · rename_i broken
      exact Except.error.inj h ▸ .notText broken
    · rename_i text decoded
      split at h
      · rename_i plain
        exact Except.error.inj h ▸ .colonless decoded (Text.splitAt?_eq_none.mp plain)
      · rename_i key value split
        obtain ⟨split, first⟩ := Text.splitAt?_eq_some.mp split
        split at h
        · rename_i named
          split at h
          · cases h
          · rename_i digits
            exact Except.error.inj h ▸ .length decoded split first named digits
        · cases h
  · intro spoils
    cases spoils with
    | notText broken => simp only [readLine, broken]
    | colonless decoded plain => simp only [readLine, decoded, Text.splitAt?_eq_none.mpr plain]
    | length decoded split first named digits =>
        simp only [readLine, decoded, Text.splitAt?_eq_some.mpr ⟨split, first⟩, named, if_true, digits]

/-- An empty line has no colon. -/
theorem Tells.filled {raw : Bytes} {length : Option Nat} (tells : Tells raw length) :
    stripReturn raw ≠ [] := by
  intro blank
  have nothing : Utf8.decode? (stripReturn raw) = some "" := by
    rw [blank]
    decide
  have colon : ∀ {text : String} {key value : List Char},
      Utf8.decode? (stripReturn raw) = some text → text.toList ≠ key ++ ':' :: value := by
    intro text key value decoded split
    obtain rfl := Option.some.inj (nothing.symm.trans decoded)
    exact absurd split.symm (List.append_ne_nil_of_right_ne_nil _ (List.cons_ne_nil _ _))
  cases tells with
  | other decoded split first named => exact colon decoded split
  | length decoded split first named digits => exact colon decoded split

/-- A header line without its line feed, and what it tells of the length. -/
structure HeaderLine where
  raw : Bytes
  length : Option Nat
  unbroken : lineFeed ∉ raw
  tells : Tells raw length

/-- Header lines as they arrive, each with its line feed. -/
def arriving (lines : List HeaderLine) : Bytes := lines.flatMap fun line => line.raw ++ [lineFeed]

/-- The length that the last line to tell one has told. -/
def lastTold (lines : List HeaderLine) : Option Nat := (lines.filterMap HeaderLine.length).getLast?

theorem arriving_snoc (lines : List HeaderLine) (line : HeaderLine) (rest : Bytes) :
    arriving (lines ++ [line]) ++ rest = arriving lines ++ (line.raw ++ lineFeed :: rest) := by
  simp only [arriving, List.flatMap_append, List.flatMap_cons, List.flatMap_nil, List.append_nil,
    List.append_assoc, List.cons_append, List.nil_append]

theorem arriving_snoc_length (lines : List HeaderLine) (line : HeaderLine) :
    (arriving (lines ++ [line])).length = (arriving lines).length + line.raw.length + 1 := by
  have same := congrArg List.length (arriving_snoc lines line [])
  simp only [List.length_append, List.length_cons, List.length_nil] at same
  omega

theorem lastTold_snoc (lines : List HeaderLine) (line : HeaderLine) :
    lastTold (lines ++ [line]) = (line.length <|> lastTold lines) := by
  rw [lastTold, lastTold, List.filterMap_append]
  cases told : line.length with
  | none => simp [told]
  | some n => simp [told]

/-! ### Blocks -/

/-- How a line ends a block that some header lines have begun. -/
inductive Ends (lines : List HeaderLine) (raw : Bytes) : Header → Prop
  | exceeds (long : greatestHeader < (arriving lines).length + raw.length + 1) :
      Ends lines raw (.invalid .headerTooLong ((arriving lines).length + raw.length + 1))
  | complete {n : Nat} (fits : (arriving lines).length + raw.length + 1 ≤ greatestHeader)
      (blank : stripReturn raw = []) (told : lastTold lines = some n) :
      Ends lines raw (.complete n ((arriving lines).length + raw.length + 1))
  | untold (fits : (arriving lines).length + raw.length + 1 ≤ greatestHeader)
      (blank : stripReturn raw = []) (untold : lastTold lines = none) :
      Ends lines raw (.invalid .lengthMissing ((arriving lines).length + raw.length + 1))
  | spoiled {fault : FrameFault} (fits : (arriving lines).length + raw.length + 1 ≤ greatestHeader)
      (filled : stripReturn raw ≠ []) (spoils : Spoils raw fault) :
      Ends lines raw (.invalid fault ((arriving lines).length + raw.length + 1))

/-- What bytes turn out to be as a header block: header lines within the limit, and after them the
line that ends the block, or a part of a line. -/
inductive Block (bytes : Bytes) : Header → Prop
  | ended {lines : List HeaderLine} {raw rest : Bytes} {header : Header}
      (split : bytes = arriving lines ++ (raw ++ lineFeed :: rest)) (unbroken : lineFeed ∉ raw)
      (within : (arriving lines).length ≤ greatestHeader) (ends : Ends lines raw header) :
      Block bytes header
  | pending {lines : List HeaderLine} {left : Bytes} (split : bytes = arriving lines ++ left)
      (unended : lineFeed ∉ left) (fits : bytes.length ≤ greatestHeader) : Block bytes .incomplete
  | overlong {lines : List HeaderLine} {left : Bytes} (split : bytes = arriving lines ++ left)
      (unended : lineFeed ∉ left) (within : (arriving lines).length ≤ greatestHeader)
      (long : greatestHeader < bytes.length) :
      Block bytes (.invalid .headerTooLong bytes.length)

/-- The scan that has been through some lines. -/
def scanned (lines : List HeaderLine) : Scan := ⟨(arriving lines).length, lastTold lines⟩

theorem scanned_within (lines : List HeaderLine) (left : Bytes) :
    (scanned lines).pos ≤ (arriving lines ++ left).length := by
  rw [List.length_append]
  exact Nat.le_add_right _ _

theorem takeLine_eq_inl {lines : List HeaderLine} {raw : Bytes} {header : Header} :
    takeLine (scanned lines) raw = .inl header ↔ Ends lines raw header := by
  constructor
  · intro h
    unfold takeLine scanned at h
    dsimp only at h
    split at h
    · rename_i long
      exact Sum.inl.inj h ▸ .exceeds long
    · rename_i fits
      have fits := Nat.le_of_not_lt fits
      split at h
      · rename_i blank
        have blank := List.isEmpty_iff.mp blank
        split at h
        · rename_i n told
          exact Sum.inl.inj h ▸ .complete fits blank told
        · rename_i untold
          exact Sum.inl.inj h ▸ .untold fits blank untold
      · rename_i filled
        split at h
        · cases h
        · cases h
        · rename_i fault spoils
          have filled : stripReturn raw ≠ [] := fun blank => filled (List.isEmpty_iff.mpr blank)
          exact Sum.inl.inj h ▸ .spoiled fits filled (readLine_eq_error.mp spoils)
  · intro ends
    cases ends with
    | exceeds long => exact if_pos long
    | complete fits blank told =>
        simp only [takeLine, scanned, Nat.not_lt.mpr fits, if_false, blank, List.isEmpty_nil, if_true, told]
    | untold fits blank untold =>
        simp only [takeLine, scanned, Nat.not_lt.mpr fits, if_false, blank, List.isEmpty_nil, if_true, untold]
    | spoiled fits filled spoils =>
        simp only [takeLine, scanned, Nat.not_lt.mpr fits, if_false, List.isEmpty_eq_false_iff.mpr filled,
          Bool.false_eq_true, readLine_eq_error.mpr spoils]

theorem takeLine_header (lines : List HeaderLine) (line : HeaderLine)
    (fits : (arriving (lines ++ [line])).length ≤ greatestHeader) :
    takeLine (scanned lines) line.raw = .inr (scanned (lines ++ [line])) := by
  rw [arriving_snoc_length] at fits
  have read := readLine_eq_ok.mpr line.tells
  have filled := List.isEmpty_eq_false_iff.mpr line.tells.filled
  simp only [takeLine, scanned, Nat.not_lt.mpr fits, if_false, filled, Bool.false_eq_true, read,
    arriving_snoc_length, lastTold_snoc]
  cases line.length with
  | none => rfl
  | some n => rfl

/-- A line that a scan goes on behind is a header line. -/
theorem takeLine_eq_inr {lines : List HeaderLine} {raw : Bytes} {next : Scan} (unbroken : lineFeed ∉ raw)
    (taken : takeLine (scanned lines) raw = .inr next) :
    ∃ line : HeaderLine, line.raw = raw ∧ next = scanned (lines ++ [line]) := by
  obtain ⟨pos, fits⟩ := takeLine_goes taken
  cases read : readLine (stripReturn raw) with
  | ok length =>
      let line : HeaderLine := ⟨raw, length, unbroken, readLine_eq_ok.mp read⟩
      have goes := takeLine_header lines line (by
        rw [arriving_snoc_length]
        exact pos ▸ fits)
      exact ⟨line, rfl, Sum.inr.inj (taken.symm.trans goes)⟩
  | error fault =>
      unfold takeLine at taken
      simp only [read] at taken
      split at taken
      · cases taken
      · split at taken
        · split at taken <;> cases taken
        · cases taken

/-! ### Scans of blocks -/

/-- A scan from some header lines on ends as the whole block says, or it waits behind the last header
line. -/
theorem Scans.block {lines : List HeaderLine} {rest : Bytes} {header : Header} {last : Scan}
    (scans : Scans rest (scanned lines) header last)
    (within : (arriving lines).length ≤ greatestHeader) :
    Block (arriving lines ++ rest) header ∧
      (header = .incomplete → ∃ more left, last = scanned more ∧
        arriving lines ++ rest = arriving more ++ left ∧ lineFeed ∉ left) := by
  generalize start : scanned lines = scan at scans
  induction scans generalizing lines with
  | @waits rest scan unended fits =>
      subst start
      refine ⟨.pending rfl unended ?_, fun _ => ⟨lines, rest, rfl, rfl, unended⟩⟩
      rw [List.length_append]
      exact fits
  | @overflows rest scan unended long =>
      subst start
      have size : (scanned lines).pos + rest.length = (arriving lines ++ rest).length :=
        List.length_append.symm
      rw [size] at long ⊢
      exact ⟨.overlong rfl unended within long, fun waits => by cases waits⟩
  | ends unbroken taken =>
      subst start
      refine ⟨.ended rfl unbroken within (takeLine_eq_inl.mp taken), ?_⟩
      rintro rfl
      exact (takeLine_ends taken).elim
  | goes unbroken taken later ih =>
      subst start
      obtain ⟨line, rfl, rfl⟩ := takeLine_eq_inr unbroken taken
      have more := ih (takeLine_goes taken).2 rfl
      rwa [arriving_snoc] at more

/-- Scanning from the start goes through the header lines first. -/
theorem Scans.from_start {lines : List HeaderLine} {rest : Bytes} {header : Header} {last : Scan}
    (scans : Scans rest (scanned lines) header last)
    (within : (arriving lines).length ≤ greatestHeader) :
    Scans (arriving lines ++ rest) .fresh header last := by
  induction lines using List.reverseRecOn generalizing rest with
  | nil => exact scans
  | append_singleton lines line ih =>
      rw [arriving_snoc]
      refine ih (.goes line.unbroken (takeLine_header lines line within) scans) ?_
      rw [arriving_snoc_length] at within
      omega

theorem Block.scans {bytes : Bytes} {header : Header} (block : Block bytes header) :
    ∃ last, Scans bytes .fresh header last := by
  cases block with
  | @ended lines raw rest header split unbroken within ends =>
      rw [split]
      exact ⟨_, Scans.from_start (.ends unbroken (takeLine_eq_inl.mpr ends)) within⟩
  | @pending lines left split unended fits =>
      subst split
      rw [List.length_append] at fits
      exact ⟨_, Scans.from_start (.waits unended fits) (Nat.le_trans (Nat.le_add_right _ _) fits)⟩
  | @overlong lines left split unended within long =>
      subst split
      rw [List.length_append] at long ⊢
      exact ⟨_, Scans.from_start (.overflows unended long) within⟩

theorem Scans.scanHeader_fresh {bytes : Bytes} {header : Header} {last : Scan}
    (scans : Scans bytes .fresh header last) : scanHeader bytes .fresh = (header, last) := by
  apply Scans.scanHeader_eq
  exact scans

theorem scanHeader_eq_iff {bytes : Bytes} {header : Header} :
    (scanHeader bytes .fresh).1 = header ↔ Block bytes header := by
  constructor
  · rintro rfl
    have scans : Scans bytes (scanned []) _ _ := scanHeader_scans bytes .fresh
    exact (scans.block (Nat.zero_le _)).1
  · intro block
    obtain ⟨last, scans⟩ := block.scans
    rw [scans.scanHeader_fresh]

/-! ### Arrival -/

/-- What the scan of a block that arrives part by part has become, as long as none of the parts ended
the block. -/
inductive Carried : Bytes → Scan → Prop
  | start : Carried [] .fresh
  | more {bytes part : Bytes} {scan next : Scan} (before : Carried bytes scan)
      (waits : scanHeader (bytes ++ part) scan = (.incomplete, next)) : Carried (bytes ++ part) next

theorem scanHeader_waits {lines : List HeaderLine} {left : Bytes} {next : Scan}
    (within : (arriving lines).length ≤ greatestHeader)
    (waits : scanHeader (arriving lines ++ left) (scanned lines) = (.incomplete, next)) :
    ∃ more rest, next = scanned more ∧ arriving lines ++ left = arriving more ++ rest ∧
      lineFeed ∉ rest ∧ (arriving lines ++ left).length ≤ greatestHeader := by
  have scans := scanHeader_scans (arriving lines ++ left) (scanned lines)
  rw [waits, show (scanned lines).pos = (arriving lines).length from rfl, List.drop_left] at scans
  obtain ⟨block, stops⟩ := scans.block within
  obtain ⟨more, rest, last, split, unended⟩ := stops rfl
  refine ⟨more, rest, last, split, unended, ?_⟩
  cases block with
  | ended _ _ _ ends => cases ends
  | pending _ _ fits => exact fits

/-- A scan under way has been through header lines. -/
theorem Carried.lines {bytes : Bytes} {scan : Scan} (carried : Carried bytes scan) :
    ∃ lines left, scan = scanned lines ∧ bytes = arriving lines ++ left ∧
      (arriving lines).length ≤ greatestHeader := by
  induction carried with
  | start => exact ⟨[], [], rfl, rfl, Nat.zero_le _⟩
  | @more bytes part scan next before waits ih =>
      obtain ⟨lines, left, rfl, rfl, within⟩ := ih
      rw [List.append_assoc] at waits ⊢
      obtain ⟨more, rest, rfl, split, -, fits⟩ := scanHeader_waits within waits
      refine ⟨more, rest, rfl, split, ?_⟩
      rw [split, List.length_append] at fits
      omega

/-- However a header block arrives, the scan of it comes to what the scan of all its bytes from the
start comes to, and that is what the grammar says. -/
theorem scan_resumed {bytes : Bytes} {scan : Scan} (carried : Carried bytes scan) (part : Bytes) :
    scanHeader (bytes ++ part) scan = scanHeader (bytes ++ part) .fresh ∧
      (∀ header, (scanHeader (bytes ++ part) scan).1 = header ↔ Block (bytes ++ part) header) ∧
      ((scanHeader (bytes ++ part) scan).1 ≠ .incomplete →
        (scanHeader (bytes ++ part) scan).2 = .fresh) := by
  obtain ⟨lines, left, rfl, rfl, within⟩ := carried.lines
  have same : scanHeader (arriving lines ++ left ++ part) (scanned lines) =
      scanHeader (arriving lines ++ left ++ part) .fresh := by
    have scans := scanHeader_scans (arriving lines ++ left ++ part) (scanned lines)
    rw [List.append_assoc, show (scanned lines).pos = (arriving lines).length from rfl,
      List.drop_left] at scans
    have whole := scans.from_start within
    rw [← List.append_assoc] at whole
    exact whole.scanHeader_fresh.symm
  refine ⟨same, fun header => ?_, fun ended => ?_⟩
  · rw [same]
    exact scanHeader_eq_iff
  · have bounded := scanned_within lines (left ++ part)
    rw [← List.append_assoc] at bounded
    exact (scanHeader_more bounded rfl ended).1

/-- A block that arrives in two parts, the first of which ends in the name of the second header. The first
header counts in letters of either case. -/
theorem scan_resumed_in_name :
    Carried (Utf8.encode "content-LENGTH: 2\r\nX-") ⟨19, some 2⟩ ∧
      scanHeader (Utf8.encode "content-LENGTH: 2\r\nX-" ++ Utf8.encode "A: b\r\n\r\n\x7b\x7d")
        ⟨19, some 2⟩ = (.complete 2 29, .fresh) ∧
      Block (Utf8.encode "content-LENGTH: 2\r\nX-" ++ Utf8.encode "A: b\r\n\r\n\x7b\x7d")
        (.complete 2 29) := by
  have first : scanHeader (Utf8.encode "content-LENGTH: 2\r\nX-") .fresh =
      (.incomplete, ⟨19, some 2⟩) := by decide +kernel
  have carried : Carried (Utf8.encode "content-LENGTH: 2\r\nX-") ⟨19, some 2⟩ :=
    @Carried.more [] _ _ _ .start first
  obtain ⟨same, grammar, -⟩ := scan_resumed carried (Utf8.encode "A: b\r\n\r\n\x7b\x7d")
  have whole : scanHeader
      (Utf8.encode "content-LENGTH: 2\r\nX-" ++ Utf8.encode "A: b\r\n\r\n\x7b\x7d") .fresh =
        (.complete 2 29, .fresh) := by decide +kernel
  refine ⟨carried, same.trans whole, (grammar _).mp ?_⟩
  rw [same, whole]

end ServerProbe.Framing
