import ServerProbe.Framing.Header
import ServerProbe.Json.Reader
import ServerProbe.Rpc.Envelope
/-!
A stream of bytes as a sequence of messages.

The decoder takes bytes in pieces of any size. A bad frame gives one fault; decoding goes on at the
next `Content-Length`, in any letter case, or right after an oversized body.
-/

namespace ServerProbe.Framing

open ServerProbe.Rpc (Message EnvelopeFault)

/-- What a frame holds when it holds no message. -/
inductive DecodeFault where
  | frame (fault : FrameFault)
  | envelope (fault : EnvelopeFault) (raw : Json)
deriving Repr

def DecodeFault.message : DecodeFault → String
  | frame fault => "malformed frame: " ++ fault.message
  | envelope fault _ => "invalid envelope: " ++ fault.message

abbrev Decoded : Type := Except DecodeFault Message

def decodeBody (body : Bytes) : Decoded :=
  match (Utf8.decode? body).bind Json.parse? with
  | none => .error (.frame .bodyNotJson)
  | some v =>
    match Message.ofJson v with
    | .ok m => .ok m
    | .error fault => .error (.envelope fault v)

/-- The bytes that have arrived and not been used, and what they are expected to be. -/
structure Decoder where
  buffer : Bytes
  /-- The body length of a frame whose header has been read. -/
  awaited : Option Nat
  /-- How many bytes of an oversized body are still to come. -/
  skip : Nat
  /-- Whether input is dropped up to the next `Content-Length`. -/
  resyncing : Bool
  scan : Scan
deriving DecidableEq, Repr

def Decoder.fresh : Decoder := ⟨[], none, 0, false, .fresh⟩

def isLineEnd (b : UInt8) : Bool := b == lineFeed || b == carriageReturn

/-- The letter A to Z a byte stands for, in lower case; other bytes as they are. -/
def lowered (b : UInt8) : UInt8 := if 65 ≤ b ∧ b ≤ 90 then b + 32 else b

/-- The bytes of the header's name, in lower case. -/
def marker : Bytes := Utf8.encode "content-length"

/-- Whether the bytes begin with the header's name, in any letter case. -/
def beginsWithMarker (bs : Bytes) : Bool := (bs.take marker.length).map lowered == marker

/-- The bytes from the first occurrence of the header's name on. -/
def fromMarker? : Bytes → Option Bytes
  | [] => none
  | b :: bs => if beginsWithMarker (b :: bs) then some (b :: bs) else fromMarker? bs

/-- The last bytes of a buffer, which may begin a header's name that has not arrived in full. -/
def markerTail (bs : Bytes) : Bytes := bs.drop (bs.length - (marker.length - 1))

namespace Decoder

/-- Drops what is left of an oversized body. -/
def dropSkipped (d : Decoder) : Decoder :=
  let n := min d.skip d.buffer.length
  { d with buffer := d.buffer.drop n, skip := d.skip - n }

/-- Drops input up to the next header's name; the flag tells whether decoding may go on. -/
def resync (d : Decoder) : Bool × Decoder :=
  if d.resyncing then
    match fromMarker? d.buffer with
    | some rest => (true, { d with buffer := rest, resyncing := false })
    | none => (false, { d with buffer := markerTail d.buffer })
  else (true, d)

def dropBlankLines (d : Decoder) : Decoder :=
  if d.scan.pos == 0 then { d with buffer := d.buffer.dropWhile isLineEnd } else d

/-- Reads on in a header. The flag tells whether decoding may go on. -/
def takeHeader (d : Decoder) : Bool × List Decoded × Decoder :=
  let d := d.dropBlankLines
  match scanHeader d.buffer d.scan with
  | (.incomplete, scan) => (false, [], { d with scan })
  | (.complete length consumed, scan) =>
    let d := { d with buffer := d.buffer.drop consumed, scan }
    if greatestBody < length then
      (true, [.error (.frame (.bodyTooLong length))], { d with skip := length })
    else (true, [], { d with awaited := some length })
  | (.invalid fault consumed, scan) =>
    (true, [.error (.frame fault)],
      { d with buffer := d.buffer.drop consumed, scan, resyncing := true })

/-- One step of decoding: what it gives, and whether another step may follow. -/
def advance (d : Decoder) : Bool × List Decoded × Decoder :=
  let d := d.dropSkipped
  if 0 < d.skip then (false, [], d)
  else
    match d.resync with
    | (false, d) => (false, [], d)
    | (true, d) =>
      match d.awaited with
      | some n =>
        if d.buffer.length < n then (false, [], d)
        else
          (true, [decodeBody (d.buffer.take n)],
            { d with buffer := d.buffer.drop n, awaited := none })
      | none => d.takeHeader

/-- Steps until no more can be decoded; `fuel` bounds their number. -/
def drain : Nat → Decoder → List Decoded × Decoder
  | 0, d => ([], d)
  | fuel + 1, d =>
    match d.advance with
    | (false, out, d) => (out, d)
    | (true, out, d) =>
      let (later, d) := drain fuel d
      (out ++ later, d)

/-- Takes in more bytes and gives every message and fault that they complete. -/
def feed (d : Decoder) (bytes : Bytes) : List Decoded × Decoder :=
  let d := { d with buffer := d.buffer ++ bytes }
  drain (2 * d.buffer.length + 4) d

def hasPartial (d : Decoder) : Bool :=
  d.awaited.isSome || decide (0 < d.skip)
    || d.buffer.any fun b => !(b == 32 || b == 9 || b == 10 || b == 12 || b == 13)

end Decoder
end ServerProbe.Framing
