import ServerProbe.Json.Shape
/-!
Edits of a text, given by positions in it.

A position counts lines and, within a line, 16-bit units; it stands for an offset in bytes.
`TextEdit.applyAll` replaces all spans at once, every span being read against the text as it was.
-/

namespace ServerProbe

structure Position where
  line : Nat
  character : Nat
deriving DecidableEq, Repr, Inhabited

structure Range where
  start : Position
  stop : Position
deriving DecidableEq, Repr, Inhabited

structure TextEdit where
  range : Range
  newText : String
deriving DecidableEq, Repr, Inhabited

namespace Position

/-- How many 16-bit units a character takes. -/
def units (c : Char) : Nat := if c.toNat < 0x10000 then 1 else 2

/-- How many bytes some characters take. -/
def byteLength (cs : List Char) : Nat := (cs.map Char.utf8Size).foldr Nat.add 0

/-- The offset of the line `n` lines after the start, and the text from there on. -/
def skipLines : Nat → List Char → Option (Nat × List Char)
  | 0, cs => some (0, cs)
  | _ + 1, [] => none
  | n + 1, c :: cs =>
    (skipLines (if c == '\n' then n else n + 1) cs).map fun (offset, rest) => (c.utf8Size + offset, rest)

/-- The first line of a text without the characters that end it. -/
def firstLine (cs : List Char) : List Char :=
  let line := cs.takeWhile (· != '\n')
  if line.getLast? == some '\r' then line.dropLast else line

/-- The offset in a line at which `wanted` units have been passed, or its end. -/
def column : Nat → List Char → Nat
  | _, [] => 0
  | wanted, c :: cs => if wanted == 0 then 0 else c.utf8Size + column (wanted - units c) cs

/-- The offset in bytes that a position stands for. Past the end of a line it is that end, and past
the last line the end of the text. -/
def offset (p : Position) (text : List Char) : Nat :=
  match skipLines p.line text with
  | none => byteLength text
  | some (start, rest) => start + column p.character (firstLine rest)

end Position

namespace TextEdit

/-- The characters within the first `n` bytes. -/
def takeBytes : Nat → List Char → List Char
  | _, [] => []
  | n, c :: cs => if n < c.utf8Size then [] else c :: takeBytes (n - c.utf8Size) cs

/-- The characters from byte `n` on. -/
def dropBytes : Nat → List Char → List Char
  | _, [] => []
  | n, c :: cs => if n < c.utf8Size then c :: cs else dropBytes (n - c.utf8Size) cs

/-- An edit with the span of bytes it replaces. -/
structure Placed where
  start : Nat
  stop : Nat
  edit : TextEdit
deriving DecidableEq, Repr

/-- A span never ends before it starts. -/
def place (text : List Char) (e : TextEdit) : Placed :=
  let start := e.range.start.offset text
  ⟨start, max start (e.range.stop.offset text), e⟩

/-- The edits by the start of their spans; those that start together keep their order. -/
def sorted (text : List Char) (edits : List TextEdit) : List Placed :=
  (edits.map (place text)).mergeSort fun a b => decide (a.start ≤ b.start)

/-- Replaces spans in `rest`, which is the text from byte `cursor` on. A span that begins before
the cursor overlaps the one before it; the start of its edit is reported. -/
def splice : Nat → List Char → List Placed → Except Position (List Char)
  | _, rest, [] => .ok rest
  | cursor, rest, p :: ps =>
    if p.start < cursor then .error p.edit.range.start
    else
      (splice p.stop (dropBytes (p.stop - cursor) rest) ps).map fun out =>
        takeBytes (p.start - cursor) rest ++ p.edit.newText.toList ++ out

/-- Applies all edits to a text at once. -/
def applyAll (text : String) (edits : List TextEdit) : Except Position String :=
  (splice 0 text.toList (sorted text.toList edits)).map String.ofList

end TextEdit

/-! ### Reading -/

open Json (Shaped required)

def Position.shape : RecordShape := ⟨"struct Position", [("line", false), ("character", false)], false⟩

def Position.ofJson (v : Json) : Shaped Position := do
  let put (p : Option Nat × Option Nat) (name : String) (v : Json) :=
    if name == "line" then v.toU32.map fun n => (some n, p.2)
    else v.toU32.map fun n => (p.1, some n)
  let (line, character) ← shape.visit put (none, none) v
  return ⟨← required "line" line, ← required "character" character⟩

def Range.shape : RecordShape := ⟨"struct Range", [("start", false), ("end", false)], false⟩

def Range.ofJson (v : Json) : Shaped Range := do
  let put (r : Option Position × Option Position) (name : String) (v : Json) :=
    if name == "start" then (Position.ofJson v).map fun p => (some p, r.2)
    else (Position.ofJson v).map fun p => (r.1, some p)
  let (start, stop) ← shape.visit put (none, none) v
  return ⟨← required "start" start, ← required "end" stop⟩

def TextEdit.shape : RecordShape := ⟨"struct TextEdit", [("range", false), ("newText", false)], false⟩

def TextEdit.ofJson (v : Json) : Shaped TextEdit := do
  let put (e : Option Range × Option String) (name : String) (v : Json) :=
    if name == "range" then (Range.ofJson v).map fun r => (some r, e.2)
    else v.toText.map fun s => (e.1, some s)
  let (range, newText) ← shape.visit put (none, none) v
  return ⟨← required "range" range, ← required "newText" newText⟩

end ServerProbe
