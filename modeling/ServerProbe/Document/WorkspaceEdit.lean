import ServerProbe.Document.TextEdit
import ServerProbe.Failure
import ServerProbe.File.Tree
/-!
Workspace edits as a server sends them: per document, the edits in listed order and the version they
were computed against. `WorkspaceEdit.ofParams` refuses everything but edits of texts.
-/

namespace ServerProbe

open Json (Shaped required)

/-- All edits of one change, which concerns one document. -/
structure FileEdit where
  uri : String
  version : Option Int
  edits : List TextEdit
deriving DecidableEq, Repr

inductive EditFault where
  | malformed (fault : ShapeFault)
  | unsupported (kind : String)
  | overlap (place : Position)
  | notOpen (uri : String)
  | notAFile (uri : String)
  | inaccessible (path : String) (fault : FileFault)
  | document (fault : DocumentFault)
  | client (failure : Failure)
deriving Repr

def EditFault.message : EditFault → String
  | malformed fault => "invalid workspace edit: " ++ fault.message
  | unsupported kind => kind ++ " operations are not supported"
  | overlap p => "overlapping edits at " ++ toString p.line ++ ":" ++ toString p.character
  | notOpen uri => "document " ++ uri ++ " is not open"
  | notAFile uri => uri ++ " is not a file URI"
  | inaccessible path fault => "cannot access " ++ path ++ ": " ++ fault.message
  | document fault => fault.message
  | client failure => failure.message

namespace WorkspaceEdit

/-- A document named in a change, with the version the server knows of it. -/
def readTarget (v : Json) : Shaped (String × Option Int) := do
  let shape : RecordShape := ⟨"struct VersionedIdentifier", [("uri", false), ("version", true)], false⟩
  let put (t : Option String × Option Int) (name : String) (v : Json) :=
    if name == "uri" then v.toText.map fun uri => (some uri, t.2)
    else (v.toOption Json.toI32).map fun version => (t.1, version)
  let (uri, version) ← shape.visit put (none, none) v
  return (← required "uri" uri, version)

def readDocumentEdit (v : Json) : Shaped FileEdit := do
  let shape : RecordShape := ⟨"struct RawTextDocumentEdit", [("textDocument", false), ("edits", false)], false⟩
  let put (d : Option (String × Option Int) × Option (List TextEdit)) (name : String) (v : Json) :=
    if name == "textDocument" then (readTarget v).map fun t => (some t, d.2)
    else (v.toItems TextEdit.ofJson).map fun edits => (d.1, some edits)
  let (target, edits) ← shape.visit put (none, none) v
  let (uri, version) ← required "textDocument" target
  return ⟨uri, version, ← required "edits" edits⟩

/-- The changes of an edit: edits by document without versions, and a list of changes, each still to
be read. -/
structure Changes where
  byUri : Option (List (String × List TextEdit))
  listed : Option (List Json)

def readChanges (v : Json) : Shaped Changes := do
  let shape : RecordShape := ⟨"struct RawWorkspaceEdit", [("changes", true), ("documentChanges", true)], false⟩
  let put (c : Changes) (name : String) (v : Json) : Shaped Changes :=
    if name == "changes" then
      (v.toOption (Json.toMembers fun v => v.toItems TextEdit.ofJson)).map fun byUri => { c with byUri }
    else (v.toOption (Json.toItems .ok)).map fun listed => { c with listed }
  shape.visit put ⟨none, none⟩ v

def readParams (v : Json) : Shaped Changes := do
  let shape : RecordShape := ⟨"struct ApplyParams", [("edit", false)], false⟩
  let put (_ : Option Changes) (_ : String) (v : Json) := (readChanges v).map some
  required "edit" (← shape.visit put none v)

/-- One listed change. A change that names its kind is an operation on files. -/
def readListed (v : Json) : Except EditFault FileEdit :=
  match (v.get? "kind").bind Json.asString? with
  | some kind => .error (.unsupported kind)
  | none => (readDocumentEdit v).mapError .malformed

/-- The edits in the params of a request to apply them. The listed changes, if there are any, stand
for the whole edit. -/
def ofParams (params : Option Json) : Except EditFault (List FileEdit) := do
  let changes ← (readParams (Json.orNull params)).mapError .malformed
  match changes.listed with
  | some listed => listed.mapM readListed
  | none => return (changes.byUri.getD []).map fun (uri, edits) => ⟨uri, none, edits⟩

end WorkspaceEdit
end ServerProbe
