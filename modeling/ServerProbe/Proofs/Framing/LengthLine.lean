import ServerProbe.Framing.Stream
import ServerProbe.Proofs.Framing.Header
import ServerProbe.Proofs.Text.Plain
/-!
The header in front of a body. It is read back as the length that it was written with, whatever
follows; and a part of it is not a header yet.
-/

namespace ServerProbe.Framing

/-! ### Digits -/

theorem toDigits_toNat {n : Nat} {c : Char} (h : c ∈ Nat.toDigits 10 n) : 48 ≤ c.toNat ∧ c.toNat ≤ 57 :=
  Char.isDigit_iff_toNat.mp (Nat.isDigit_of_mem_toDigits (by decide) (by decide) h)

theorem isDigit_of_mem_toDigits {n : Nat} {c : Char} (h : c ∈ Nat.toDigits 10 n) : isDigit c = true := by
  obtain ⟨low, high⟩ := toDigits_toNat h
  have least : '0' ≤ c := low
  have most : c ≤ '9' := high
  rw [isDigit, decide_eq_true least, decide_eq_true most, Bool.and_self]

theorem isBlank_of_mem_toDigits {n : Nat} {c : Char} (h : c ∈ Nat.toDigits 10 n) :
    Text.isBlank c = false := by
  obtain ⟨low, high⟩ := toDigits_toNat h
  simp only [Text.isBlank, Bool.or_eq_false_iff, Bool.and_eq_false_iff, decide_eq_false_iff_not,
    beq_eq_false_iff_ne]
  omega

theorem digitsValue?_toDigits {n : Nat} (announced : n < UInt64.size) :
    digitsValue? (Nat.toDigits 10 n) = some n := by
  have some : (Nat.toDigits 10 n).isEmpty = false := List.isEmpty_eq_false_iff.mpr Nat.toDigits_ne_nil
  have digits : (Nat.toDigits 10 n).all isDigit = true :=
    List.all_eq_true.mpr fun c held => isDigit_of_mem_toDigits held
  have value : (Nat.toDigits 10 n).foldl (fun n c => n * 10 + (c.toNat - 48)) 0 = n := by
    have step : (fun n (c : Char) => n * 10 + (c.toNat - 48)) =
        fun n c => 10 * n + (c.toNat - '0'.toNat) := by
      funext n c
      rw [Nat.mul_comm]
      rfl
    rw [step, ← Nat.ofDigitChars_eq_foldl, Nat.ofDigitChars_ten_toDigits]
  rw [digitsValue?, some, digits, value]
  exact if_pos announced

theorem lengthValue?_toDigits {n : Nat} (announced : n < UInt64.size) :
    lengthValue? (Nat.toDigits 10 n) = some n := by
  unfold lengthValue?
  split
  · rename_i cs signed
    have low := (toDigits_toNat (signed ▸ List.mem_cons_self : '+' ∈ Nat.toDigits 10 n)).1
    exact absurd low (by decide)
  · exact digitsValue?_toDigits announced

/-! ### The line -/

def lengthLine (n : Nat) : Bytes := Utf8.encode ("Content-Length: " ++ toString n)

/-- The line that tells a length, and the empty line that ends the header. -/
def lengthHeader (n : Nat) : Bytes := lengthLine n ++ [carriageReturn, lineFeed, carriageReturn, lineFeed]

theorem frame_eq (body : Bytes) : frame body = lengthHeader body.length ++ body := by
  have ending : Utf8.encode "\r\n\r\n" = [carriageReturn, lineFeed, carriageReturn, lineFeed] := by decide
  rw [frame, Utf8.encode_append, ending, lengthHeader, lengthLine]

theorem lengthLine_toList (n : Nat) : ("Content-Length: " ++ toString n).toList =
    lengthName ++ ':' :: ' ' :: Nat.toDigits 10 n := by
  rw [String.toList_append, Nat.toString_eq_repr, Nat.toList_repr]
  rfl

theorem lengthLine_plain (n : Nat) : ∀ c ∈ ("Content-Length: " ++ toString n).toList,
    32 ≤ c.toNat ∧ c.toNat < 128 := by
  have split : lengthName ++ ':' :: ' ' :: Nat.toDigits 10 n =
      (lengthName ++ [':', ' ']) ++ Nat.toDigits 10 n := by
    rw [List.append_assoc]
    rfl
  rw [lengthLine_toList, split]
  intro c held
  rcases List.mem_append.mp held with held | held
  · have start : (lengthName ++ [':', ' ']).all (fun c => 32 ≤ c.toNat ∧ c.toNat < 128) = true := by
      decide
    exact of_decide_eq_true (List.all_eq_true.mp start c held)
  · obtain ⟨low, high⟩ := toDigits_toNat held
    exact ⟨Nat.le_trans (by decide) low, Nat.lt_of_le_of_lt high (by decide)⟩

theorem readLine_lengthLine {n : Nat} (announced : n < UInt64.size) :
    readLine (lengthLine n) = .ok (some n) := by
  have named : Text.sameLetters (Text.trim lengthName) lengthName = true := by decide
  have digits : Text.trim (' ' :: Nat.toDigits 10 n) = Nat.toDigits 10 n :=
    Text.trim_of_solid fun c held => isBlank_of_mem_toDigits held
  rw [readLine, lengthLine, Utf8.decode?_encode fun c held => (lengthLine_plain n c held).2]
  dsimp only
  rw [lengthLine_toList, Text.splitAt?_mark (by decide)]
  dsimp only
  rw [named, digits, lengthValue?_toDigits announced]
  rfl

theorem lengthLine_bytes (n : Nat) : ∀ b ∈ lengthLine n, 32 ≤ b.toNat := by
  intro b held
  have plain := lengthLine_plain n
  rw [lengthLine, Utf8.encode_of_plain fun c held => (plain c held).2] at held
  obtain ⟨c, inside, rfl⟩ := List.mem_map.mp held
  rw [Utf8.toNat_toUInt8_of_plain (plain c inside).2]
  exact (plain c inside).1

theorem lengthLine_unended (n : Nat) : lineFeed ∉ lengthLine n := fun held =>
  absurd (lengthLine_bytes n _ held) (by decide)

theorem lengthLine_head (n : Nat) : ∃ rest, lengthLine n = 67 :: rest := by
  have start : Utf8.encode "Content-Length: " = 67 :: Utf8.encode "ontent-Length: " := by decide
  rw [lengthLine, Utf8.encode_append, start]
  exact ⟨_, rfl⟩

theorem lengthLine_length {n : Nat} (announced : n < UInt64.size) : (lengthLine n).length ≤ 36 := by
  have digits : (Nat.toDigits 10 n).length ≤ 20 :=
    (Nat.length_toDigits_le_iff (by decide) (by decide)).mpr (Nat.lt_trans announced (by decide))
  have named : lengthName.length = 14 := by decide
  rw [lengthLine, Utf8.encode_of_plain fun c held => (lengthLine_plain n c held).2, List.length_map,
    lengthLine_toList, List.length_append, List.length_cons, List.length_cons, named]
  omega

/-! ### The header -/

theorem lengthHeader_length (n : Nat) : (lengthHeader n).length = (lengthLine n).length + 4 :=
  List.length_append

theorem takeLine_lengthLine {n : Nat} (announced : n < UInt64.size) :
    takeLine .fresh (lengthLine n ++ [carriageReturn]) = .inr ⟨(lengthLine n).length + 2, some n⟩ := by
  have size := lengthLine_length announced
  have whole : stripReturn (lengthLine n ++ [carriageReturn]) = lengthLine n := by
    rw [stripReturn, List.getLast?_concat, beq_self_eq_true, if_pos rfl, List.dropLast_concat]
  have some : (lengthLine n).isEmpty = false := by
    obtain ⟨rest, head⟩ := lengthLine_head n
    rw [head]
    rfl
  have next : Scan.fresh.pos + (lengthLine n ++ [carriageReturn]).length + 1 =
      (lengthLine n).length + 2 := by
    rw [List.length_append, show Scan.fresh.pos = 0 from rfl, Nat.zero_add]
    rfl
  have fits : ¬ greatestHeader < (lengthLine n).length + 2 := by
    rw [greatestHeader]
    omega
  rw [takeLine, next, whole, some, readLine_lengthLine announced]
  dsimp only
  rw [if_neg fits, if_neg Bool.false_ne_true]

theorem takeLine_last {scan : Scan} {n : Nat} (told : scan.length = some n)
    (fits : scan.pos + 2 ≤ greatestHeader) :
    takeLine scan [carriageReturn] = .inl (.complete n (scan.pos + 2)) := by
  have blank : (stripReturn [carriageReturn]).isEmpty = true := by decide
  rw [takeLine, blank, told]
  exact if_neg (Nat.not_lt.mpr fits)

theorem scans_lengthHeader {n : Nat} (announced : n < UInt64.size) (more : Bytes) :
    Scans (lengthHeader n ++ more) .fresh (.complete n (lengthHeader n).length) .fresh := by
  have size := lengthLine_length announced
  have lines : lengthHeader n ++ more =
      (lengthLine n ++ [carriageReturn]) ++ lineFeed :: ([carriageReturn] ++ lineFeed :: more) := by
    simp only [lengthHeader, List.append_assoc, List.cons_append, List.nil_append]
  have unended : lineFeed ∉ lengthLine n ++ [carriageReturn] := by
    intro held
    rcases List.mem_append.mp held with held | held
    · exact lengthLine_unended n held
    · cases List.mem_singleton.mp held
  have fits : (lengthLine n).length + 2 + 2 ≤ greatestHeader := by
    rw [greatestHeader]
    omega
  have last : takeLine ⟨(lengthLine n).length + 2, some n⟩ [carriageReturn] =
      .inl (.complete n (lengthHeader n).length) := by
    rw [lengthHeader_length]
    exact takeLine_last rfl fits
  rw [lines]
  exact .goes unended (takeLine_lengthLine announced) (.ends (by decide) last)

/-- A part of a header is waited on, since a scan that had ended would not change with the rest. -/
theorem scanHeader_part {n : Nat} (announced : n < UInt64.size) {start rest : Bytes}
    (split : lengthHeader n = start ++ rest) (some : rest ≠ []) :
    ∃ scan, scanHeader start .fresh = (.incomplete, scan) := by
  have whole : scanHeader (start ++ rest) .fresh = (.complete n (lengthHeader n).length, .fresh) := by
    have scans := scans_lengthHeader announced []
    rw [List.append_nil] at scans
    rw [← split]
    exact Scans.scanHeader_eq (show Scans ((lengthHeader n).drop Scan.fresh.pos) _ _ _ from scans)
  have shorter : start.length < (lengthHeader n).length := by
    have size := congrArg List.length split
    have least := List.length_pos_iff.mpr some
    rw [List.length_append] at size
    omega
  cases answer : scanHeader start .fresh with
  | mk header scan =>
      by_cases waits : header = .incomplete
      · exact ⟨scan, by rw [waits]⟩
      · exfalso
        obtain ⟨-, ⟨block, left, here, ends, same⟩ | ⟨done, left, -, -, -, -, goes⟩⟩ :=
          scanHeader_more (Nat.zero_le _) answer waits
        · have complete := (Prod.mk.inj ((same rest).symm.trans whole)).1
          rw [complete] at ends
          have size := congrArg List.length here
          rw [List.length_append, List.length_cons] at size
          have consumed : (lengthHeader n).length = block.length + 1 := ends
          omega
        · obtain ⟨gone, -, fault⟩ := goes rest
          cases fault.symm.trans whole

end ServerProbe.Framing
