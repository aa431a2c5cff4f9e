import ServerProbe.Document.TextEdit
import ServerProbe.File.Uri
import ServerProbe.Routine.Basic
/-!
Checks of what a server answers when it is asked about a place in a file: hover texts, completions,
definitions, references and the symbols of a document.
-/

namespace ServerProbe

/-- A position as a server writes it: two integers that are not negative. -/
def Position.ofJson? (v : Json) : Option Position := do
  return ⟨← (← v.get? "line").asNat?, ← (← v.get? "character").asNat?⟩

namespace Range

def ofJson? (v : Json) : Option Range := do
  return ⟨← Position.ofJson? (← v.get? "start"), ← Position.ofJson? (← v.get? "end")⟩

def render (r : Range) : String :=
  toString r.start.line ++ ":" ++ toString r.start.character ++ "-" ++ toString r.stop.line ++ ":"
    ++ toString r.stop.character

end Range

namespace Check

variable {η : Type}

/-- The failure of a check of an answer that is null. -/
def nullAnswer (what : String) : CheckFailure := .assertion (what ++ " response is null")

def verdict (holds : Bool) (reason : String) : Except CheckFailure Unit :=
  if holds then .ok () else .error (.assertion reason)

def quotedList (names : List String) : String :=
  "[" ++ String.intercalate ", " (names.map Text.quoted) ++ "]"

/-! ### Hover -/

mutual

/-- The text of hover contents: a text itself, the texts of a list on lines of their own, or the
`value` of a markup object. -/
def hoverText : Json → String
  | .str s => s
  | .arr items => String.intercalate "\n" (hoverTexts items)
  | v => ((v.get? "value").bind Json.asString?).getD ""

def hoverTexts : List Json → List String
  | [] => []
  | v :: rest => hoverText v :: hoverTexts rest

end

/-- The text of a hover answer that has contents. -/
def hoverText? (answer : Json) : Option String := (answer.get? "contents").map hoverText

def hoverContains (answer : Json) (pattern : String) : Except CheckFailure Unit :=
  match hoverText? answer with
  | none => .error (nullAnswer "hover")
  | some text =>
    verdict (Text.hasPart pattern.toList text.toList)
      ("expected " ++ Text.quoted pattern ++ " in hover content, got " ++ Text.quoted text)

/-! ### Completion -/

/-- The items of a completion answer, which is a list or has one. -/
def completionItems : Json → List Json
  | .arr items => items
  | v =>
    match v.get? "items" with
    | some (.arr items) => items
    | _ => []

def completionLabels (answer : Json) : List String :=
  (completionItems answer).filterMap fun item => (item.get? "label").bind Json.asString?

def completionOffers (answer : Json) (label : String) : Except CheckFailure Unit :=
  let labels := completionLabels answer
  verdict (labels.contains label)
    ("expected completion label " ++ Text.quoted label ++ " not found in " ++ quotedList labels)

/-! ### Places -/

/-- A range in a file of the workspace. -/
structure Site where
  path : String
  range : Range
deriving DecidableEq, Repr

def Site.render (s : Site) : String := s.path ++ ":" ++ s.range.render

/-- The file and range that an entry of an answer gives, as far as it gives them. -/
structure Target where
  uri : Json
  range : Option Range
deriving Repr

def Target.ofLocation? (v : Json) : Option Target :=
  (v.get? "uri").map fun uri => ⟨uri, (v.get? "range").bind Range.ofJson?⟩

/-- A link to a place, or else a plain location. -/
def Target.ofLink? (v : Json) : Option Target :=
  match v.get? "targetUri" with
  | some uri => some ⟨uri, (v.get? "targetSelectionRange").bind Range.ofJson?⟩
  | none => Target.ofLocation? v

/-- A path without links and idle parts if it exists, and as it is if not. -/
def canonical (path : String) : Routine η String := do
  match ← Routine.question (.resolvePath path) with
  | .ok resolved => return resolved
  | .error _ => return path

def samePath (a b : String) : Bool :=
  Path.isAbsolute a == Path.isAbsolute b && Path.steps a == Path.steps b

/-- Whether a URI stands for the file at a path. -/
def isFile (uri path : String) : Routine η Bool :=
  match FileUri.toPath? uri with
  | none => pure false
  | some found => do return samePath (← canonical found) (← canonical path)

def Target.isAt (site : Site) (t : Target) : Routine η Bool :=
  match t.uri.asString? with
  | none => pure false
  | some uri => do return (← isFile uri site.path) && t.range == some site.range

/-- Whether one of some targets is at a site. -/
def anyAt (site : Site) : List Target → Routine η Bool
  | [] => pure false
  | t :: rest => do
    match ← t.isAt site with
    | true => return true
    | false => anyAt site rest

/-- A definition answer is a place or a list of places. -/
def definitionIsAt (answer : Json) (site : Site) : Routine η (Except CheckFailure Unit) :=
  let among (places : List Json) : Routine η (Except CheckFailure Unit) := do
    return verdict (← anyAt site (places.filterMap Target.ofLink?))
      ("definition not found at " ++ site.render ++ " in " ++ answer.compact)
  match answer with
  | .null => pure (.error (nullAnswer "definition"))
  | .arr places => among places
  | place => among [place]

def referenceIsAt (answer : Json) (site : Site) : Routine η (Except CheckFailure Unit) :=
  match answer with
  | .arr places => do
    return verdict (← anyAt site (places.filterMap Target.ofLocation?))
      ("reference not found at " ++ site.render)
  | _ => pure (.error (nullAnswer "references"))

/-! ### Symbols -/

/-- A symbol of a document, with the number of its kind. -/
structure Symbol where
  name : String
  kind : Option Nat
deriving DecidableEq, Repr

def Symbol.ofJson (v : Json) : Symbol :=
  ⟨((v.get? "name").bind Json.asString?).getD "", (v.get? "kind").bind Json.asNat?⟩

def Symbol.render (s : Symbol) : String := s.name ++ " (" ++ toString (s.kind.getD 0) ++ ")"

mutual

/-- A symbol and what it holds, each symbol before its own. -/
def symbolsOf : Json → List Symbol
  | .obj members => Symbol.ofJson (.obj members) :: childSymbols members
  | v => [Symbol.ofJson v]

/-- The symbols of the first member called `children`. -/
def childSymbols : List (String × Json) → List Symbol
  | [] => []
  | (key, v) :: rest =>
    if key == "children" then
      match v with
      | .arr items => symbolsOfAll items
      | _ => []
    else childSymbols rest

def symbolsOfAll : List Json → List Symbol
  | [] => []
  | v :: rest => symbolsOf v ++ symbolsOfAll rest

end

/-- Whether a document has a symbol, of a kind if one is given. -/
def symbolIsThere (answer : Json) (name : String) (kind : Option Nat) : Except CheckFailure Unit :=
  match answer with
  | .arr items =>
    let symbols := symbolsOfAll items
    verdict (symbols.any fun s => s.name == name && (kind.isNone || s.kind == kind))
      ("symbol " ++ Text.quoted name ++ " not found; saw " ++ quotedList (symbols.map Symbol.render))
  | _ => .error (nullAnswer "document symbols")

end Check
end ServerProbe
