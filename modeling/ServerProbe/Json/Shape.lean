import ServerProbe.Json.Basic
import ServerProbe.Text.Quoted
import ServerProbe.Decimal.Shortest
/-!
Reading documents into typed values.

Members of an object are visited in key order, so the first bad one in that order is reported;
absent members are reported afterwards. A record may also be written as an array of its fields in
the declared order.
-/

namespace ServerProbe

/-- Why a document does not have an expected shape. -/
inductive ShapeFault where
  | wrongType (seen expected : String)
  | outOfRange (seen expected : String)
  | wrongLength (length : Nat) (expected : String)
  | missingField (name : String)
  | unknownField (name : String) (known : List String)
  | unknownVariant (name : String) (known : List String)
  | noVariant (type : String)
deriving DecidableEq, Repr

namespace ShapeFault

def ticked (s : String) : String := "`" ++ s ++ "`"

def choices : List String → String
  | [] => ""
  | [a] => ticked a
  | [a, b] => ticked a ++ " or " ++ ticked b
  | names => "one of " ++ String.intercalate ", " (names.map ticked)

def message : ShapeFault → String
  | wrongType seen expected => "invalid type: " ++ seen ++ ", expected " ++ expected
  | outOfRange seen expected => "invalid value: " ++ seen ++ ", expected " ++ expected
  | wrongLength n expected => "invalid length " ++ toString n ++ ", expected " ++ expected
  | missingField name => "missing field " ++ ticked name
  | unknownField name known => "unknown field " ++ ticked name ++ ", expected " ++ choices known
  | unknownVariant name known => "unknown variant " ++ ticked name ++ ", expected " ++ choices known
  | noVariant type => "data did not match any variant of untagged enum " ++ type

end ShapeFault

namespace Json

/-- The kind of a document, with the value of a scalar. -/
def kindText : Json → String
  | .null => "null"
  | .bool b => "boolean " ++ ShapeFault.ticked (if b then "true" else "false")
  | .num (.int n) => "integer " ++ ShapeFault.ticked (toString n)
  | .num (.double x) => "floating point " ++ ShapeFault.ticked x.render
  | .str s => "string " ++ Text.quoted s
  | .arr _ => "sequence"
  | .obj _ => "map"

abbrev Shaped (α : Type) : Type := Except ShapeFault α

def mistyped {α : Type} (expected : String) (v : Json) : Shaped α :=
  .error (.wrongType v.kindText expected)

def toText : Json → Shaped String
  | .str s => .ok s
  | v => v.mistyped "a string"

def toFlag : Json → Shaped Bool
  | .bool b => .ok b
  | v => v.mistyped "a boolean"

/-- An integer from `low` up to, but without, `high`. -/
def toWhole (type : String) (low high : Int) : Json → Shaped Int
  | .num (.int n) => if low ≤ n ∧ n < high then .ok n else .error (.outOfRange (kindText (int n)) type)
  | v => v.mistyped type

def toI32 : Json → Shaped Int := toWhole "i32" (-(UInt32.size / 2 : Nat)) (UInt32.size / 2 : Nat)

def toI64 : Json → Shaped Int := toWhole "i64" (-(UInt64.size / 2 : Nat)) (UInt64.size / 2 : Nat)

def toU32 (v : Json) : Shaped Nat := (toWhole "u32" 0 UInt32.size v).map Int.toNat

def toU64 (v : Json) : Shaped Nat := (toWhole "u64" 0 UInt64.size v).map Int.toNat

/-- Null is an absent value. -/
def toOption {α : Type} (read : Json → Shaped α) : Json → Shaped (Option α)
  | .null => .ok none
  | v => (read v).map some

def toItems {α : Type} (read : Json → Shaped α) : Json → Shaped (List α)
  | .arr vs => vs.mapM read
  | v => v.mistyped "a sequence"

/-- A text that names a file. -/
def toPath : Json → Shaped String
  | .str s => .ok s
  | v => v.mistyped "path string"

/-- The name of one of several variants, alone or as the key of a null. -/
def toVariant (names : List String) : Json → Shaped String
  | .str s => if names.contains s then .ok s else .error (.unknownVariant s names)
  | .obj [(s, v)] =>
    if !names.contains s then .error (.unknownVariant s names)
    else if v.isNull then .ok s
    else v.mistyped "unit"
  | .obj _ => .error (.outOfRange "map" "map with a single key")
  | v => v.mistyped "string or map"

def toMembers {α : Type} (read : Json → Shaped α) : Json → Shaped (List (String × α))
  | .obj ms => ms.mapM fun m => (read m.2).map fun v => (m.1, v)
  | v => v.mistyped "a map"

end Json

/-- The fields of a record in declared order, each with whether the array form may leave it out.
A strict record refuses members it does not know. -/
structure RecordShape where
  title : String
  fields : List (String × Bool)
  strict : Bool

namespace RecordShape

open Json (Shaped)

def names (r : RecordShape) : List String := r.fields.map Prod.fst

/-- How the array form is described when it is too short. -/
def arrayText (r : RecordShape) : String :=
  r.title ++ " with " ++ toString r.fields.length
    ++ (if r.fields.length == 1 then " element" else " elements")

/-- Visits the items of the array form; `index` counts those before. -/
def visitItems {σ : Type} (r : RecordShape) (put : σ → String → Json → Shaped σ) (total : Nat) :
    Nat → σ → List (String × Bool) → List Json → Shaped σ
  | _, s, [], rest => if rest.isEmpty then .ok s else .error (.wrongLength total "fewer elements in array")
  | index, s, (_, optional) :: fs, [] =>
    if optional then r.visitItems put total (index + 1) s fs []
    else .error (.wrongLength index r.arrayText)
  | index, s, (name, _) :: fs, v :: vs =>
    match put s name v with
    | .ok s => r.visitItems put total (index + 1) s fs vs
    | .error e => .error e

def visitMembers {σ : Type} (r : RecordShape) (put : σ → String → Json → Shaped σ) :
    σ → List (String × Json) → Shaped σ
  | s, [] => .ok s
  | s, (name, v) :: rest =>
    if r.names.contains name then
      match put s name v with
      | .ok s => r.visitMembers put s rest
      | .error e => .error e
    else if r.strict then .error (.unknownField name r.names)
    else r.visitMembers put s rest

/-- Collects the fields of a record, in either form. -/
def visit {σ : Type} (r : RecordShape) (put : σ → String → Json → Shaped σ) (start : σ) :
    Json → Shaped σ
  | .obj ms => r.visitMembers put start ms
  | .arr vs => r.visitItems put vs.length 0 start r.fields vs
  | v => v.mistyped r.title

end RecordShape

def Json.required {α : Type} (name : String) : Option α → Json.Shaped α
  | some v => .ok v
  | none => .error (.missingField name)

end ServerProbe
