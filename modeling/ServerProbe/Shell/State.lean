import ServerProbe.File.Path
import ServerProbe.Shell.Pattern
import ServerProbe.Shell.Process
import ServerProbe.Shell.Syntax
/-!
The state of a running script, and the steps that scripts are made of: looking up a parameter, writing,
reading, and splitting what words expand to into fields.
-/

namespace ServerProbe.Shell

inductive Sink where
  /-- To the output of the process. -/
  | output
  | nowhere
  /-- To the end of a file. -/
  | file (path : String)
  /-- To the text that a substitution stands for. -/
  | capture
deriving DecidableEq, Repr

structure State where
  /-- The variables with their values. -/
  bindings : List (List Char × List Char)
  /-- What commands get as their variables. -/
  environment : List (List Char × List Char)
  functions : List (List Char × Command)
  name : List Char
  arguments : List (List Char)
  status : Nat
  directory : String
  /-- What is left of an input other than that of the process. -/
  input : Option (List Char)
  output : Sink
  errors : Sink
  captured : List Char

/-- Why a command is left before its end. -/
inductive Jump where
  | exit (status : Nat)
  | leave (status : Nat)
  | stop (levels : Nat)
  | next (levels : Nat)
  | killed (signal : Nat)
  /-- The bound on the length of a run was reached. -/
  | spent
deriving DecidableEq, Repr

abbrev Run : Type → Type := ExceptT Jump (StateT State Process)

def system (call : SystemCall) : Run call.Answer :=
  ExceptT.lift (StateT.lift (Dialogue.question call))

/-! ### Variables -/

def find? {α : Type} (name : List Char) (entries : List (List Char × α)) : Option α :=
  (entries.find? fun e => e.1 == name).map Prod.snd

def put {α : Type} (name : List Char) (value : α) (entries : List (List Char × α)) :
    List (List Char × α) :=
  (name, value) :: entries.filter fun e => e.1 != name

def State.assign (name value : List Char) (s : State) : State :=
  { s with
    bindings := put name value s.bindings
    environment := if (find? name s.environment).isSome then put name value s.environment
      else s.environment }

def State.exportAs (name value : List Char) (s : State) : State :=
  { s with bindings := put name value s.bindings, environment := put name value s.environment }

def decimalText (n : Nat) : List Char := Nat.toDigits 10 n

/-- The value of a parameter, if it is set. -/
def State.parameter? (s : State) (name : List Char) : Option (List Char) :=
  match name with
  | ['#'] => some (decimalText s.arguments.length)
  | ['?'] => some (decimalText s.status)
  | ['$'] => some ['1']
  | ['@'] | ['*'] => some ([' '].intercalate s.arguments)
  | ['0'] => some s.name
  | [c] => if c.isDigit then s.arguments[c.toNat - 49]? else find? name s.bindings
  | _ => find? name s.bindings

/-! ### Input and output -/

def pathOf (directory : String) (name : List Char) : String := Path.join directory (Octets.toString name)

def nullDevice : String := "/dev/null"

def create (path : String) : Run Bool := do
  if path == nullDevice then return true
  match ← system (.writeFile path []) with
  | .ok _ => return true
  | .error _ => return false

/-- Makes sure that a file is there to be written to. -/
def touch (path : String) : Run Bool := do
  if path == nullDevice then return true
  match ← system (.readFile path) with
  | .ok _ => return true
  | .error _ => create path

def appendTo (path : String) (text : List Char) : Run Unit := do
  match ← system (.readFile path) with
  | .ok before => let _ ← system (.writeFile path (before ++ text))
  | .error _ => let _ ← system (.writeFile path text)

def emit (sink : Sink) (text : List Char) : Run Unit := do
  match sink with
  | .output => system (.write text)
  | .nowhere => pure ()
  | .file path => if path == nullDevice then pure () else appendTo path text
  | .capture => modify fun s => { s with captured := s.captured ++ text }

def say (text : List Char) : Run Unit := do emit (← get).output text

/-- Text up to the first line end and including it, and what follows. -/
def cutLine (text : List Char) : List Char × List Char :=
  let line := text.takeWhile (· != '\n')
  match text.dropWhile (· != '\n') with
  | c :: rest => (line ++ [c], rest)
  | [] => (line, [])

/-- Takes some of the input: of a redirected one by `cut`, of that of the process by a call. -/
def takeInput (cut : List Char → List Char × List Char) (own : Run (List Char)) :
    Run (List Char) := do
  match (← get).input with
  | none => own
  | some text =>
    let (taken, rest) := cut text
    modify fun s => { s with input := some rest }
    return taken

def takeLine : Run (List Char) := takeInput cutLine (system .readLine)

def takeBytes (count : Nat) : Run (List Char) :=
  takeInput (fun text => (text.take count, text.drop count)) (system (.readBytes count))

def takeSome : Run (List Char) := takeInput (fun text => (text, [])) (system .readSome)

def takeAll : Run (List Char) := takeInput (fun text => (text, [])) (system .readAll)

/-! ### Fields -/

/-- One character of what a word expands to, or a mark between characters. -/
inductive Piece where
  | plain (c : Char)
  | quoted (c : Char)
  /-- A character from an expansion, at which a field may end. -/
  | expanded (c : Char)
  /-- Keeps a field that is empty. -/
  | kept
  /-- Ends a field. -/
  | gap
deriving DecidableEq, Repr

def Piece.char? : Piece → Option Char
  | plain c | quoted c | expanded c => some c
  | kept | gap => none

def Piece.sign? : Piece → Option Pattern.Sign
  | plain c | expanded c => some (c, false)
  | quoted c => some (c, true)
  | kept | gap => none

def textOf (pieces : List Piece) : List Char := pieces.filterMap Piece.char?

def patternOf (pieces : List Piece) : Pattern := .ofSigns (pieces.filterMap Piece.sign?)

def isSeparator (c : Char) : Bool := c == ' ' || c == '\t' || c == '\n'

/-- The fields of what some words expand to. `current` holds the field that has begun, if any. -/
def fieldsFrom : (current : Option (List Char)) → List Piece → List (List Char)
  | current, [] => current.toList
  | current, .gap :: rest => current.toList ++ fieldsFrom none rest
  | current, .kept :: rest => fieldsFrom (some (current.getD [])) rest
  | current, .plain c :: rest => fieldsFrom (some (current.getD [] ++ [c])) rest
  | current, .quoted c :: rest => fieldsFrom (some (current.getD [] ++ [c])) rest
  | current, .expanded c :: rest =>
    if isSeparator c then current.toList ++ fieldsFrom none rest
    else fieldsFrom (some (current.getD [] ++ [c])) rest

def piecesOf (quoted : Bool) (text : List Char) : List Piece :=
  if quoted then .kept :: text.map .quoted else text.map .expanded

def keepTogether (quoted : Bool) (pieces : List Piece) : List Piece :=
  if quoted then piecesOf true (textOf pieces) else pieces

/-- The text without the line ends at its end. -/
def withoutLastLines (text : List Char) : List Char := (text.reverse.dropWhile (· == '\n')).reverse

end ServerProbe.Shell
