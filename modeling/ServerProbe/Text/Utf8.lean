/-!
Characters as bytes. `Utf8.scan` reads a byte sequence piece by piece: each piece is one character,
or the longest run of bytes that begins a character but cannot be finished. Strict reading accepts
no broken piece; lenient reading puts the replacement character in its place.
-/

namespace ServerProbe

abbrev Bytes : Type := List UInt8

namespace Utf8

def encodeChar (c : Char) : Bytes :=
  let n := c.toNat
  if n < 0x80 then [n.toUInt8]
  else if n < 0x800 then [(0xC0 + n / 0x40).toUInt8, (0x80 + n % 0x40).toUInt8]
  else if n < 0x10000 then
    [(0xE0 + n / 0x1000).toUInt8, (0x80 + n / 0x40 % 0x40).toUInt8, (0x80 + n % 0x40).toUInt8]
  else
    [(0xF0 + n / 0x40000).toUInt8, (0x80 + n / 0x1000 % 0x40).toUInt8,
      (0x80 + n / 0x40 % 0x40).toUInt8, (0x80 + n % 0x40).toUInt8]

def encode (s : String) : Bytes := s.toList.flatMap encodeChar

/-- How a character that starts with a given byte continues: the bits the byte contributes, the
range of the second byte, and how many bytes follow that one. -/
structure Lead where
  bits : Nat
  low : Nat
  high : Nat
  more : Nat

def lead? (b : Nat) : Option Lead :=
  if b < 0xC2 then none
  else if b < 0xE0 then some ⟨b - 0xC0, 0x80, 0xBF, 0⟩
  else if b == 0xE0 then some ⟨0, 0xA0, 0xBF, 1⟩
  else if b == 0xED then some ⟨13, 0x80, 0x9F, 1⟩
  else if b < 0xF0 then some ⟨b - 0xE0, 0x80, 0xBF, 1⟩
  else if b == 0xF0 then some ⟨0, 0x90, 0xBF, 2⟩
  else if b < 0xF4 then some ⟨b - 0xF0, 0x80, 0xBF, 2⟩
  else if b == 0xF4 then some ⟨4, 0x80, 0x8F, 2⟩
  else none

/-- What the scan is in the middle of: `need` bytes of a character whose bits so far are `bits`,
the next one between `low` and `high`. -/
structure Partial where
  bits : Nat
  low : Nat
  high : Nat
  need : Nat

/-- A byte at the start of a piece. -/
def start (b : UInt8) : Option Char ⊕ Partial :=
  if b.toNat < 0x80 then .inl (some (Char.ofNat b.toNat))
  else match lead? b.toNat with
    | some l => .inr ⟨l.bits, l.low, l.high, l.more + 1⟩
    | none => .inl none

/-- The pieces of a byte sequence; `none` is a broken one. -/
def scanFrom : Option Partial → Bytes → List (Option Char)
  | none, [] => []
  | some _, [] => [none]
  | none, b :: bs =>
    match start b with
    | .inl piece => piece :: scanFrom none bs
    | .inr p => scanFrom (some p) bs
  | some p, b :: bs =>
    if p.low ≤ b.toNat ∧ b.toNat ≤ p.high then
      let bits := p.bits * 0x40 + (b.toNat - 0x80)
      if p.need == 1 then some (Char.ofNat bits) :: scanFrom none bs
      else scanFrom (some ⟨bits, 0x80, 0xBF, p.need - 1⟩) bs
    else
      match start b with
      | .inl piece => none :: piece :: scanFrom none bs
      | .inr q => none :: scanFrom (some q) bs

def scan (bs : Bytes) : List (Option Char) := scanFrom none bs

def allPresent : List (Option Char) → Option (List Char)
  | [] => some []
  | some c :: rest => (allPresent rest).map (c :: ·)
  | none :: _ => none

/-- The text a byte sequence holds, when every piece is a character. -/
def decode? (bs : Bytes) : Option String := (allPresent (scan bs)).map String.ofList

/-- The text of a byte sequence, broken pieces being replaced. -/
def decodeLenient (bs : Bytes) : String :=
  String.ofList ((scan bs).map fun piece => piece.getD (Char.ofNat 0xFFFD))

end Utf8
end ServerProbe
