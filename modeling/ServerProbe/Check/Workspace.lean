import ServerProbe.Check.Answers
import ServerProbe.Routine.Client
/-!
Asking a server about the files of a workspace. A file is open on the server for as long as the
request takes.
-/

namespace ServerProbe

/-- The directory that the names of files are read from. -/
structure Workspace where
  root : String
deriving DecidableEq, Repr

namespace Workspace

open Check
open Routine (Fallible question orElse)

variable {η : Type}

def path (w : Workspace) (name : String) : String := Path.join w.root name

def uri (w : Workspace) (name : String) : Except CheckFailure String :=
  match FileUri.ofPath? (w.path name) with
  | some uri => .ok uri
  | none => .error (.assertion ("cannot convert path to file URI: " ++ w.path name))

/-- A file operation whose failure fails the check. -/
def fileStep {α : Type} (verb path : String) (r : Routine η (Except FileFault α)) :
    Fallible η CheckFailure α :=
  orElse r fun fault => .assertion ("cannot " ++ verb ++ " " ++ path ++ ": " ++ fault.message)

/-- An operation of the client whose failure fails the check. -/
def clientStep {α : Type} (r : Routine η (Except Failure α)) : Fallible η CheckFailure α :=
  orElse r .client

/-- Writes a file, with the directories it is in, and gives its path. -/
def createFile (w : Workspace) (name text : String) : Fallible η CheckFailure String := do
  let path := w.path name
  match Path.parent? path with
  | some parent => fileStep "create" parent (question (.makeDirectory parent))
  | none => pure ()
  fileStep "write" path (question (.writeFile path text))
  return path

/-- The language of a file, by the end of its name. -/
def languageOf (path : String) : String :=
  match Path.extension? path with
  | some "py" | some "pyi" => "python"
  | some "rs" => "rust"
  | some "ts" => "typescript"
  | some "tsx" => "typescriptreact"
  | some "js" => "javascript"
  | some "go" => "go"
  | some "c" | some "h" => "c"
  | some "cpp" | some "hpp" | some "cc" => "cpp"
  | _ => "plaintext"

/-- Opens a file on the server, makes a request, and closes the file whatever came of the request. If
the file cannot be closed, that is the failure. -/
def requestWhileOpen (w : Workspace) (name uri method : String) (params : Json) :
    Fallible η CheckFailure Json := do
  let path := w.path name
  let text ← fileStep "read" path (question (.readFile path))
  let _ ← clientStep (Client.openDocument uri (languageOf path) text)
  let answer ← ExceptT.lift (Client.request method (some params) none)
  let _ ← clientStep (Client.closeDocument uri)
  clientStep (pure answer)

/-- A place in a file of the workspace. -/
structure Spot where
  name : String
  position : Position
deriving DecidableEq, Repr

def documentMember (uri : String) : String × Json := ("textDocument", .ofMembers [("uri", .str uri)])

def positionMember (p : Position) : String × Json :=
  ("position", .ofMembers [("line", .nat p.line), ("character", .nat p.character)])

/-- Asks about a place, if the server advertises that it answers. -/
def requestAt (w : Workspace) (method : String) (spot : Spot) (more : List (String × Json)) :
    Fallible η CheckFailure Json := do
  let session ← ExceptT.lift (question .session)
  clientStep (pure (Client.checkMethodSupport session method))
  let uri ← ExceptT.mk (pure (w.uri spot.name))
  w.requestWhileOpen spot.name uri method
    (.ofMembers (documentMember uri :: positionMember spot.position :: more))

def hover (w : Workspace) (spot : Spot) : Fallible η CheckFailure Json :=
  w.requestAt "textDocument/hover" spot []

def completion (w : Workspace) (spot : Spot) : Fallible η CheckFailure Json :=
  w.requestAt "textDocument/completion" spot []

def definition (w : Workspace) (spot : Spot) : Fallible η CheckFailure Json :=
  w.requestAt "textDocument/definition" spot []

def references (w : Workspace) (spot : Spot) : Fallible η CheckFailure Json :=
  w.requestAt "textDocument/references" spot
    [("context", .ofMembers [("includeDeclaration", .bool true)])]

/-- Asks for the symbols of a file, whatever the server advertises. -/
def symbols (w : Workspace) (name : String) : Fallible η CheckFailure Json := do
  let uri ← ExceptT.mk (pure (w.uri name))
  w.requestWhileOpen name uri "textDocument/documentSymbol" (.ofMembers [documentMember uri])

/-- The place in the workspace that an answer should name. -/
def site (w : Workspace) (name : String) (range : Range) : Site := ⟨w.path name, range⟩

end Workspace
end ServerProbe
