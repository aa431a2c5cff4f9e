import ServerProbe.Failure
/-!
The documents a client has opened on the server. Opening is counted: only the first opening and the
last closing of a document are of any concern to the server.
-/

namespace ServerProbe

/-- A version is told as the whole number that it is. -/
instance wholeVersion : Coe Int32 Int := ⟨Int32.toInt⟩

structure Document where
  language : String
  text : String
  /-- Counts the changes since the document was opened, in 32 bits: after the greatest version comes the
  least. -/
  version : Int32
deriving DecidableEq, Repr

/-- A document and how many times it has been opened and not yet closed. -/
structure OpenDocument where
  document : Document
  count : Nat
deriving DecidableEq, Repr

structure DocumentStore where
  entries : List (String × OpenDocument)
deriving DecidableEq, Repr

namespace DocumentStore

def empty : DocumentStore := ⟨[]⟩

def findIn (uri : String) : List (String × OpenDocument) → Option OpenDocument
  | [] => none
  | (k, d) :: rest => if k == uri then some d else findIn uri rest

def find? (s : DocumentStore) (uri : String) : Option OpenDocument := findIn uri s.entries

def get? (s : DocumentStore) (uri : String) : Option Document := (s.find? uri).map (·.document)

def count (s : DocumentStore) (uri : String) : Nat :=
  match s.find? uri with
  | some d => d.count
  | none => 0

def update (s : DocumentStore) (uri : String) (d : OpenDocument) : DocumentStore :=
  ⟨s.entries.map fun e => if e.1 == uri then (uri, d) else e⟩

def remove (s : DocumentStore) (uri : String) : DocumentStore := ⟨s.entries.filter fun e => e.1 != uri⟩

/-- Opens a document. The first opening gives the document the server has to be told of. -/
def register (s : DocumentStore) (uri language text : String) : Option Document × DocumentStore :=
  match s.find? uri with
  | some d => (none, s.update uri { d with count := d.count + 1 })
  | none =>
    let document : Document := ⟨language, text, 0⟩
    (some document, ⟨s.entries ++ [(uri, ⟨document, 1⟩)]⟩)

/-- Replaces a document's text and gives its new version. With a base version, it has to be the
current one. -/
def change (s : DocumentStore) (uri text : String) (base : Option Int32) :
    Except DocumentFault (Int32 × DocumentStore) :=
  match s.find? uri with
  | none => .error (.notFound uri)
  | some d =>
    let version := d.document.version
    let changed := (version + 1,
      s.update uri { d with document := { d.document with text, version := version + 1 } })
    match base with
    | none => .ok changed
    | some expected =>
      if expected == version then .ok changed else .error (.versionMismatch uri expected version)

/-- Closes a document once; tells whether that was the last time. -/
def close (s : DocumentStore) (uri : String) : Except DocumentFault (Bool × DocumentStore) :=
  match s.find? uri with
  | none => .error (.notFound uri)
  | some d =>
    if d.count ≤ 1 then .ok (true, s.remove uri)
    else .ok (false, s.update uri { d with count := d.count - 1 })

end DocumentStore
end ServerProbe
