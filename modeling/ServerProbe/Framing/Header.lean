import ServerProbe.Text.Blank
import ServerProbe.Text.Quoted
import ServerProbe.Text.Utf8
/-!
Header blocks: lines ended by a line feed, up to the first empty one, among which the last
`Content-Length` line tells how long the body is. A block is scanned line by line while it arrives,
and no line is read twice.
-/

namespace ServerProbe.Framing

def lineFeed : UInt8 := 10

def carriageReturn : UInt8 := 13

/-- The longest header block, in bytes. -/
def greatestHeader : Nat := 8192

/-- The longest frame body, in bytes. -/
def greatestBody : Nat := 67108864

inductive FrameFault where
  | headerTooLong
  | lengthMissing
  | lineNotText
  | lineWithoutColon (line : String)
  | lengthInvalid (value : String)
  | bodyTooLong (length : Nat)
  | bodyNotJson
deriving DecidableEq, Repr

def FrameFault.message : FrameFault → String
  | headerTooLong => "header block exceeds " ++ toString greatestHeader ++ " bytes"
  | lengthMissing => "missing Content-Length header"
  | lineNotText => "header line is not valid UTF-8"
  | lineWithoutColon line => "unparsable header line: " ++ Text.quoted line
  | lengthInvalid value => "invalid Content-Length value: " ++ Text.quoted value
  | bodyTooLong n =>
    "Content-Length " ++ toString n ++ " exceeds maximum " ++ toString greatestBody
  | bodyNotJson => "frame body is not valid JSON"

/-- How much of a block has been scanned: the bytes of its complete lines, and the length the last
`Content-Length` line among them gave. -/
structure Scan where
  pos : Nat
  length : Option Nat
deriving DecidableEq, Repr

def Scan.fresh : Scan := ⟨0, none⟩

/-- What a header block turns out to be; `consumed` counts the bytes it takes up. -/
inductive Header where
  | incomplete
  | complete (length consumed : Nat)
  | invalid (fault : FrameFault) (consumed : Nat)
deriving DecidableEq, Repr

def isDigit (c : Char) : Bool := decide ('0' ≤ c) && decide (c ≤ '9')

/-- Decimal digits as a number of at most 64 bits. -/
def digitsValue? (cs : List Char) : Option Nat :=
  if cs.isEmpty || !cs.all isDigit then none
  else
    let n := cs.foldl (fun n c => n * 10 + (c.toNat - 48)) 0
    if n < UInt64.size then some n else none

/-- A length is written in digits, with or without a plus sign. -/
def lengthValue? : List Char → Option Nat
  | '+' :: cs => digitsValue? cs
  | cs => digitsValue? cs

def lengthName : List Char := "Content-Length".toList

/-- What a header line says about the length; other headers say nothing. -/
def readLine (line : Bytes) : Except FrameFault (Option Nat) :=
  match Utf8.decode? line with
  | none => .error .lineNotText
  | some text =>
    match Text.splitAt? ':' text.toList with
    | none => .error (.lineWithoutColon text)
    | some (key, value) =>
      if Text.sameLetters (Text.trim key) lengthName then
        match lengthValue? (Text.trim value) with
        | some n => .ok (some n)
        | none => .error (.lengthInvalid (String.ofList (Text.trim value)))
      else .ok none

/-- A line without the carriage return at its end. -/
def stripReturn (line : Bytes) : Bytes :=
  if line.getLast? == some carriageReturn then line.dropLast else line

/-- The bytes before the first line feed and those after it. -/
def splitLine? : Bytes → Option (Bytes × Bytes)
  | [] => none
  | b :: bs => if b == lineFeed then some ([], bs) else (splitLine? bs).map fun (l, r) => (b :: l, r)

/-- Scans the lines of `rest`, which is what follows the scanned part of a block. `fuel` bounds the
number of lines. Every answer but `incomplete` starts the scan afresh. -/
def scanLines : Nat → Bytes → Scan → Header × Scan
  | 0, _, scan => (.incomplete, scan)
  | fuel + 1, rest, scan =>
    match splitLine? rest with
    | none =>
      let size := scan.pos + rest.length
      if greatestHeader < size then (.invalid .headerTooLong size, .fresh) else (.incomplete, scan)
    | some (raw, rest) =>
      let next := scan.pos + raw.length + 1
      if greatestHeader < next then (.invalid .headerTooLong next, .fresh)
      else
        let line := stripReturn raw
        if line.isEmpty then
          match scan.length with
          | some n => (.complete n next, .fresh)
          | none => (.invalid .lengthMissing next, .fresh)
        else
          match readLine line with
          | .ok (some n) => scanLines fuel rest ⟨next, some n⟩
          | .ok none => scanLines fuel rest ⟨next, scan.length⟩
          | .error fault => (.invalid fault next, .fresh)

/-- Scans on in a block that begins at the start of `buffer`, which must not begin with a blank
line. -/
def scanHeader (buffer : Bytes) (scan : Scan) : Header × Scan :=
  scanLines (buffer.length + 1) (buffer.drop scan.pos) scan

end ServerProbe.Framing
