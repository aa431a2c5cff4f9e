import ServerProbe.Framing.Decoder
/-!
Writing frames, and reading a whole stream of them.
-/

namespace ServerProbe.Framing

open ServerProbe.Rpc (Message)

/-- A body with the header that tells its length. -/
def frame (body : Bytes) : Bytes :=
  Utf8.encode ("Content-Length: " ++ toString body.length ++ "\r\n\r\n") ++ body

def encode (m : Message) : Bytes := frame (Utf8.encode m.toJson.compact)

/-- How many bytes a reader takes from a stream at a time. -/
def readSize : Nat := 8192

/-- Bytes in pieces of at most `size`; `fuel` bounds the number of pieces. -/
def pieces (size : Nat) : Nat → Bytes → List Bytes
  | 0, _ => []
  | _ + 1, [] => []
  | fuel + 1, bs => bs.take size :: pieces size fuel (bs.drop size)

def feedAll (d : Decoder) : List Bytes → List (List Decoded) × Decoder
  | [] => ([], d)
  | piece :: rest =>
    let (out, d) := d.feed piece
    let (outs, d) := feedAll d rest
    (out :: outs, d)

/-- How a stream ends: between frames, or inside one. -/
inductive StreamEnd where
  | clean
  | insideFrame
deriving DecidableEq, Repr

def StreamEnd.message : StreamEnd → String
  | clean => "eof"
  | insideFrame => "I/O error: EOF in the middle of a frame"

/-- Everything a stream holds, and how it ends. -/
def readStream (bs : Bytes) : List Decoded × StreamEnd :=
  let (outs, d) := feedAll .fresh (pieces readSize (bs.length + 1) bs)
  (outs.flatten, if d.hasPartial then .insideFrame else .clean)

end ServerProbe.Framing
