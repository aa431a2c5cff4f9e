import ServerProbe.Check.Failure
import ServerProbe.File.Tree
import ServerProbe.File.Uri
import ServerProbe.Fixture.Basic
import ServerProbe.Json.Reader
import ServerProbe.Json.Shape
/-!
Reading fixtures. The texts of a fixture may name its workspace by placeholders, which are filled in
before the steps are read.
-/

namespace ServerProbe.Fixture

open Json (Shaped required)

/-! ### Placeholders -/

def workspacePlaceholder : String := "$\x7bworkspace\x7d"

def workspaceUriPlaceholder : String := "$\x7bworkspace_uri\x7d"

/-- What the placeholders stand for. -/
structure Filling where
  workspace : String
  workspaceUri : String

def Filling.fillText (f : Filling) (s : String) : String :=
  if Text.hasPart "$\x7b".toList s.toList then
    Text.replace workspacePlaceholder f.workspace (Text.replace workspaceUriPlaceholder f.workspaceUri s)
  else s

mutual

/-- A document with the placeholders in its texts filled in. Keys stay as they are. -/
def Filling.fill (f : Filling) : Json → Json
  | .str s => .str (f.fillText s)
  | .arr vs => .arr (f.fillItems vs)
  | .obj ms => .obj (f.fillMembers ms)
  | .null => .null
  | .bool b => .bool b
  | .num n => .num n

def Filling.fillItems (f : Filling) : List Json → List Json
  | [] => []
  | v :: vs => f.fill v :: f.fillItems vs

def Filling.fillMembers (f : Filling) : List (String × Json) → List (String × Json)
  | [] => []
  | (k, v) :: ms => (k, f.fill v) :: f.fillMembers ms

end

/-! ### Steps -/

inductive StepFault where
  | notAnObject
  | unknownKind
  | twoOutcomes
  | malformed (fault : ShapeFault)
deriving DecidableEq, Repr

def StepFault.message : StepFault → String
  | notAnObject => "a step must be an object"
  | unknownKind => "expected one of `request`, `notify` or `expect_notification`"
  | twoOutcomes => "a request expects either result or error"
  | malformed fault => fault.message

/-- The fields of a step, whatever its kind. A null field counts as absent. -/
structure StepFields where
  method : Option String
  params : Option Json
  result : Option Json
  error : Option Json
  timeout : Option Nat
  mode : ExpectMode

namespace StepFields

def none : StepFields := ⟨.none, .none, .none, .none, .none, .next⟩

def put (s : StepFields) (name : String) (v : Json) : Shaped StepFields :=
  match name with
  | "params" => (v.toOption .ok).map fun params => { s with params }
  | "result" => (v.toOption .ok).map fun result => { s with result }
  | "error" => (v.toOption .ok).map fun error => { s with error }
  | "timeout_ms" => (v.toOption Json.toU64).map fun timeout => { s with timeout }
  | "mode" => (v.toVariant ["next", "eventually"]).map fun label => { s with mode := .ofLabel label }
  | _ => v.toText.map fun method => { s with method := some method }

/-- Reads a step whose kind is told by the key of its method. -/
def read (title key : String) (others : List (String × Bool)) (v : Json) :
    Except StepFault (String × StepFields) := do
  let shape : RecordShape := ⟨title, (key, false) :: others, true⟩
  let fields ← (shape.visit put .none v).mapError .malformed
  let method ← (required key fields.method).mapError .malformed
  return (method, fields)

end StepFields

def expectation (s : StepFields) : Except StepFault Expectation :=
  match s.result, s.error with
  | some _, some _ => .error .twoOutcomes
  | some result, none => .ok (.result result)
  | none, some error => .ok (.error error)
  | none, none => .ok .success

/-- One step. The kind is told by the first of the three keys that is there. -/
def readStep (v : Json) : Except StepFault FixtureStep := do
  let timeout (s : StepFields) : Option Span := s.timeout.map .ofMillis
  match v with
  | .obj ms =>
    let has (key : String) : Bool := (Json.find? key ms).isSome
    if has "request" then
      let (method, s) ← StepFields.read "struct RawRequest" "request"
        [("params", false), ("result", false), ("error", false), ("timeout_ms", false)] v
      return .request method s.params (← expectation s) (timeout s)
    else if has "notify" then
      let (method, s) ← StepFields.read "struct RawNotify" "notify" [("params", false)] v
      return .notify method s.params
    else if has "expect_notification" then
      let (method, s) ← StepFields.read "struct RawExpect" "expect_notification"
        [("params", false), ("mode", true), ("timeout_ms", false)] v
      return .expectNotification method s.params s.mode (timeout s)
    else throw .unknownKind
  | _ => throw .notAnObject

def readSteps (filling : Filling) : Nat → List Json → Except String (List FixtureStep)
  | _, [] => .ok []
  | n, v :: vs =>
    match readStep (filling.fill v) with
    | .error fault => .error ("step " ++ toString n ++ ": " ++ fault.message)
    | .ok step => (readSteps filling (n + 1) vs).map (step :: ·)

/-! ### Documents -/

/-- The fields of a fixture before its workspace is known. -/
structure Outline where
  name : Option String
  workspace : Option String
  handshake : Option Json
  steps : List Json

def Outline.put (o : Outline) (name : String) (v : Json) : Shaped Outline :=
  match name with
  | "workspace" => (v.toOption Json.toPath).map fun workspace => { o with workspace }
  | "initialize" => (v.toOption .ok).map fun handshake => { o with handshake }
  | "steps" => (v.toItems .ok).map fun steps => { o with steps }
  | _ => v.toText.map fun name => { o with name := some name }

def shape : RecordShape :=
  ⟨"struct RawFixture", [("name", false), ("workspace", false), ("initialize", false), ("steps", true)], true⟩

/-- A fixture's name and outline. No key may be repeated. -/
def readOutline? (text : String) : Option (String × Outline) := do
  let v ← Json.parse? text
  if (Json.writtenKeys text).Nodup then
    let outline ← (shape.visit Outline.put ⟨none, none, none, []⟩ v).toOption
    return (← outline.name, outline)
  else none

/-- The workspace as an absolute path; one that exists is freed of dots. -/
def absolute (files : FileTree) (path : String) : String :=
  match files.resolve path with
  | .ok resolved => resolved
  | .error _ => if Path.isAbsolute path then path else Path.join files.current.render path

/-- The directory a fixture is about: the given one, or the one it names itself, seen from its own
directory, or that directory. -/
def workspaceOf (files : FileTree) (origin : String) (given named : Option String) : String :=
  let base := (Path.parent? origin).getD "."
  absolute files (given.getD ((named.map (Path.join base)).getD base))

/-- The fixture a text holds. `origin` is where the text comes from. -/
def parse (files : FileTree) (text origin : String) (given : Option String) :
    Except CheckFailure Fixture :=
  match readOutline? text with
  | none => .error (.fixture origin "invalid fixture")
  | some (name, outline) =>
    let workspace := workspaceOf files origin given outline.workspace
    match FileUri.ofDirectory? workspace with
    | none => .error (.fixture origin ("workspace " ++ workspace ++ " has no file URI"))
    | some workspaceUri =>
      let filling : Filling := ⟨workspace, workspaceUri⟩
      match readSteps filling 1 outline.steps with
      | .error reason => .error (.fixture origin reason)
      | .ok steps =>
        .ok ⟨name, origin, workspace, workspaceUri, outline.handshake.map filling.fill, steps⟩

def load (files : FileTree) (path : String) (given : Option String) : Except CheckFailure Fixture :=
  match files.readText path with
  | .error fault => .error (.fixture path ("cannot read: " ++ fault.message))
  | .ok text => parse files text path given

end ServerProbe.Fixture
