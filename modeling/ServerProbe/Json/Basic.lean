import ServerProbe.Decimal.Binary64
/-!
JSON documents.

Members of an object are kept in increasing key order, each key once; `Json.set` keeps that order,
and everything that builds an object goes through it. An integer and a double are different numbers
even when their values agree.
-/

namespace ServerProbe

/-- A JSON number: an integer of at most 64 bits, or a finite double. -/
inductive Number where
  | int (value : Int)
  | double (value : Binary64)
deriving DecidableEq, Repr

def Number.same : Number → Number → Bool
  | .int a, .int b => a == b
  | .double a, .double b => a.same b
  | _, _ => false

inductive Json where
  | null
  | bool (value : Bool)
  | num (value : Number)
  | str (value : String)
  | arr (items : List Json)
  | obj (members : List (String × Json))
deriving Repr, Inhabited

namespace Json

mutual

/-- Equality of documents, with numeric equality of doubles. -/
def same : Json → Json → Bool
  | .null, .null => true
  | .bool a, .bool b => a == b
  | .num a, .num b => a.same b
  | .str a, .str b => a == b
  | .arr as, .arr bs => sameItems as bs
  | .obj as, .obj bs => sameMembers as bs
  | _, _ => false

def sameItems : List Json → List Json → Bool
  | [], [] => true
  | a :: as, b :: bs => same a b && sameItems as bs
  | _, _ => false

def sameMembers : List (String × Json) → List (String × Json) → Bool
  | [], [] => true
  | (k, a) :: as, (l, b) :: bs => k == l && same a b && sameMembers as bs
  | _, _ => false

end

instance : BEq Json := ⟨same⟩

/-- The value of the first member called `key`. -/
def find? (key : String) : List (String × Json) → Option Json
  | [] => none
  | (k, v) :: rest => if k == key then some v else find? key rest

/-- The members with `key` set to `value`, in increasing key order. -/
def set (key : String) (value : Json) : List (String × Json) → List (String × Json)
  | [] => [(key, value)]
  | (k, v) :: rest =>
    if key == k then (key, value) :: rest
    else if key < k then (key, value) :: (k, v) :: rest
    else (k, v) :: set key value rest

/-- The members in increasing key order; the last of several with one key counts. -/
def ordered (members : List (String × Json)) : List (String × Json) :=
  members.foldl (fun sorted m => set m.1 m.2 sorted) []

def ofMembers (members : List (String × Json)) : Json := .obj (ordered members)

/-- An object without the members that are absent. -/
def ofPresent (members : List (String × Option Json)) : Json :=
  ofMembers (members.filterMap fun m => m.2.map fun v => (m.1, v))

/-- The member of an object called `key`; other documents have none. -/
def get? (key : String) : Json → Option Json
  | .obj members => find? key members
  | _ => none

def int (n : Int) : Json := .num (.int n)

def nat (n : Nat) : Json := .num (.int n)

def ofStrings (names : List String) : Json := .arr (names.map .str)

def orNull (value : Option Json) : Json := value.getD .null

def asString? : Json → Option String
  | .str s => some s
  | _ => none

/-- An integer in the signed 64-bit range. -/
def asInt? : Json → Option Int
  | .num (.int n) => if -(UInt64.size / 2 : Nat) ≤ n ∧ n < (UInt64.size / 2 : Nat) then some n else none
  | _ => none

def asNat? : Json → Option Nat
  | .num (.int n) => if 0 ≤ n then some n.toNat else none
  | _ => none

def isNull : Json → Bool
  | .null => true
  | _ => false

end Json
end ServerProbe
