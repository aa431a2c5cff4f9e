import ServerProbe.Json.Printer
/-!
Structural containment of documents.

An object is contained in an object that has all its keys with containing values, an array in an
array in which its items are contained one after the other, and anything else in what it equals.
`Json.mismatch?` reports the first place at which containment fails.
-/

namespace ServerProbe

/-- A place in a document: the keys on the way from the root, then possibly an index. -/
structure Place where
  keys : List String
  index : Option Nat
deriving DecidableEq, Repr

namespace Place

def root : Place := ⟨[], none⟩

/-- The same place, seen from the object that holds this document under `key`. -/
def under (key : String) (p : Place) : Place := { p with keys := key :: p.keys }

def render (p : Place) : String :=
  String.join ("$" :: p.keys.map ("." ++ ·))
    ++ match p.index with
      | some i => "[" ++ toString i ++ "]"
      | none => ""

end Place

/-- The first difference between a document and what it should contain. Nothing was found where a key
is missing or where no item is left for an expected one. -/
structure Mismatch where
  place : Place
  expected : Json
  actual : Option Json
deriving Repr

namespace Mismatch

def under (key : String) (m : Mismatch) : Mismatch := { m with place := m.place.under key }

def message (m : Mismatch) : String :=
  "mismatch at " ++ m.place.render ++ ": expected " ++ m.expected.compact ++ ", found "
    ++ match m.actual with
      | some v => v.compact
      | none => "nothing"

end Mismatch

namespace Json

/-- The items after the first one that satisfies `p`. -/
def afterFirst? (p : Json → Bool) : List Json → Option (List Json)
  | [] => none
  | v :: rest => if p v then some rest else afterFirst? p rest

mutual

/-- Where a document fails to contain the expected one, if it does. -/
def mismatch? : (expected actual : Json) → Option Mismatch
  | .obj want, .obj actual => membersMismatch? want actual
  | .arr want, .arr actual => itemsMismatch? 0 want actual
  | expected, actual =>
    if actual.same expected then none else some ⟨.root, expected, some actual⟩

def membersMismatch? : (want actual : List (String × Json)) → Option Mismatch
  | [], _ => none
  | (key, v) :: rest, actual =>
    match find? key actual with
    | none => some ⟨⟨[key], none⟩, v, none⟩
    | some w =>
      match mismatch? v w with
      | some m => some (m.under key)
      | none => membersMismatch? rest actual

/-- Each expected item takes the first of the remaining items that contains it; `index` counts the
expected items before. -/
def itemsMismatch? (index : Nat) : (want actual : List Json) → Option Mismatch
  | [], _ => none
  | v :: rest, actual =>
    match afterFirst? (fun w => (mismatch? v w).isNone) actual with
    | some left => itemsMismatch? (index + 1) rest left
    | none => some ⟨⟨[], some index⟩, v, none⟩

end

def contains (actual expected : Json) : Bool := (mismatch? expected actual).isNone

end Json
end ServerProbe
