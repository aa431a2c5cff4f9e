import ServerProbe.Call.Table
import ServerProbe.Dialogue
import ServerProbe.File.Tree
import ServerProbe.Session.State
/-!
Processes: programs that read an input, write an output, and use files.

Programs work on bytes. A byte is kept as the character of its number, so that programs can be written
over lists of characters.
-/

namespace ServerProbe

namespace Octets

def ofBytes (bytes : Bytes) : List Char := bytes.map fun b => Char.ofNat b.toNat

def toBytes (cs : List Char) : Bytes := cs.map fun c => c.toNat.toUInt8

def ofString (s : String) : List Char := ofBytes (Utf8.encode s)

/-- Bytes as text; what is not well formed is replaced. -/
def toString (cs : List Char) : String := Utf8.decodeLenient (toBytes cs)

end Octets

inductive SystemCall where
  /-- The input up to the next line end and including it, or all that is left before the end. -/
  | readLine
  /-- So many bytes of the input, or all that is left before the end. -/
  | readBytes (count : Nat)
  /-- As many bytes of the input as there are, at least one, or nothing at its end. -/
  | readSome
  /-- The whole input. -/
  | readAll
  | write (bytes : List Char)
  | readFile (path : String)
  | writeFile (path : String) (contents : List Char)
  /-- Whether a path names a file (`true`), a directory (`false`) or nothing. -/
  | look (path : String)
  | now
  | moment (t : Time)
deriving Repr

abbrev SystemCall.Answer : SystemCall → Type
  | readLine | readBytes _ | readSome | readAll => List Char
  | write _ | moment _ => Unit
  | readFile _ => Except FileFault (List Char)
  | writeFile _ _ => Except FileFault Unit
  | look _ => Option Bool
  | now => Time

/-- A process comes to an end with its exit status. -/
abbrev Process : Type → Type := Dialogue SystemCall SystemCall.Answer

end ServerProbe
