import ServerProbe.Document.WorkspaceEdit
import ServerProbe.File.Uri
import ServerProbe.Routine.Client
/-!
Applying a workspace edit. Every change is first staged against the document as the client has it
open, or else against the file on disk. Only if all could be staged is anything committed.
-/

namespace ServerProbe.WorkspaceEdit

variable {η : Type}

/-- What comes of applying an edit. A failure names the first change that could not be applied, unless
the edit could not be read at all. -/
structure Applied where
  failure : Option (EditFault × Option Nat)
deriving Repr

def Applied.toJson (a : Applied) : Json :=
  match a.failure with
  | none => .obj [("applied", .bool true)]
  | some (fault, change) =>
    .ofPresent [("applied", some (.bool false)), ("failureReason", some (.str fault.message)),
      ("failedChange", change.map .nat)]

/-- Where the new text of a document goes: to the client, if the document is still at the version it
was read at, or to a file. -/
inductive Target where
  | opened (base : Int32)
  | file (path : String)
deriving DecidableEq, Repr

/-- The new text of a document, and the first change that concerned it. -/
structure Staged where
  uri : String
  change : Nat
  target : Target
  text : String
deriving DecidableEq, Repr

def applyEdits (text : String) (edits : List TextEdit) : Except EditFault String :=
  (TextEdit.applyAll text edits).mapError .overlap

/-- Stages a change of a document that is open. -/
def stageOpen (index : Nat) (change : FileEdit) (d : Document) : Except EditFault Staged :=
  let edited := (applyEdits d.text change.edits).map fun text => ⟨change.uri, index, .opened d.version, text⟩
  match change.version with
  | none => edited
  | some expected =>
    if expected == d.version then edited
    else .error (.document (.versionMismatch change.uri expected d.version))

/-- Stages a change of a file, whose text has been read. -/
def stageFile (index : Nat) (change : FileEdit) (path text : String) : Except EditFault Staged :=
  (applyEdits text change.edits).map fun text => ⟨change.uri, index, .file path, text⟩

def stage (index : Nat) (change : FileEdit) : Routine η (Except EditFault Staged) := do
  match ← Client.document change.uri with
  | .error failure => return .error (.client failure)
  | .ok (some d) => return stageOpen index change d
  | .ok none =>
    match change.version, FileUri.toPath? change.uri with
    | some _, _ => return .error (.notOpen change.uri)
    | none, none => return .error (.notAFile change.uri)
    | none, some path =>
      match ← Routine.question (.readFile path) with
      | .error fault => return .error (.inaccessible path fault)
      | .ok text => return stageFile index change path text

/-- Stages a further change of a document, on top of the text staged before. -/
def restage (prior : Staged) (change : FileEdit) : Except EditFault Staged :=
  let edited := (applyEdits prior.text change.edits).map fun text => { prior with text }
  match prior.target, change.version with
  | .opened base, some expected =>
    if expected == base then edited
    else .error (.document (.versionMismatch change.uri expected base))
  | .file _, some _ => .error (.notOpen change.uri)
  | _, none => edited

def stagedFor? (uri : String) (staged : List Staged) : Option Staged := staged.find? fun s => s.uri == uri

def replaceStaged (s : Staged) (staged : List Staged) : List Staged :=
  staged.map fun t => if t.uri == s.uri then s else t

/-- Stages all changes in listed order; `index` counts those before. -/
def stageAll : (index : Nat) → (staged : List Staged) → List FileEdit →
    Routine η (Except (EditFault × Nat) (List Staged))
  | _, staged, [] => pure (.ok staged)
  | index, staged, change :: rest =>
    match stagedFor? change.uri staged with
    | some prior =>
      match restage prior change with
      | .error fault => pure (.error (fault, index))
      | .ok s => stageAll (index + 1) (replaceStaged s staged) rest
    | none => do
      match ← stage index change with
      | .error fault => return .error (fault, index)
      | .ok s => stageAll (index + 1) (staged ++ [s]) rest

def commit (s : Staged) : Routine η (Except EditFault Unit) :=
  match s.target with
  | .opened base => do
    match Client.flatten (← Routine.question (.command (.changeDocument s.uri s.text (some base)))) with
    | .error (.document fault) => return .error (.document fault)
    | .error failure => return .error (.client failure)
    | .ok _ => return .ok ()
  | .file path => do
    return (← Routine.question (.writeFile path s.text)).mapError (.inaccessible path)

def commitAll : List Staged → Routine η (Except (EditFault × Nat) Unit)
  | [] => pure (.ok ())
  | s :: rest => do
    match ← commit s with
    | .error fault => return .error (fault, s.change)
    | .ok _ => commitAll rest

/-- Applies the edit in the params of a server request. -/
def applyParams (params : Option Json) : Routine η Applied :=
  match ofParams params with
  | .error fault => pure ⟨some (fault, none)⟩
  | .ok changes => do
    match ← stageAll 0 [] changes with
    | .error (fault, index) => return ⟨some (fault, some index)⟩
    | .ok staged =>
      match ← commitAll staged with
      | .error (fault, index) => return ⟨some (fault, some index)⟩
      | .ok _ => return ⟨none⟩

end ServerProbe.WorkspaceEdit
