/-!
A record that one party fills and others wait on.

An item is added in two steps: it is appended, and then the record's number is raised. A waiter also
goes in steps: it notes the number, scans the items, and sleeps until the number is another one. The
steps of all parties may be interleaved in any way.
-/

namespace ServerProbe

structure Record (α : Type) where
  items : List α
  number : Nat
deriving Repr

namespace Record

variable {α : Type}

def empty : Record α := ⟨[], 0⟩

def append (r : Record α) (item : α) : Record α := { r with items := r.items ++ [item] }

def raise (r : Record α) : Record α := { r with number := r.number + 1 }

/-- Both steps of adding an item. -/
def add (r : Record α) (item : α) : Record α := (r.append item).raise

/-- What a waiter does next, or that it has found what it waits for. -/
inductive Waiter (α : Type) where
  | noting
  | scanning (noted : Nat)
  | sleeping (noted : Nat)
  | found (item : α)
deriving Repr

namespace Waiter

/-- One step of a waiter. A sleeping one goes on only when the record's number has changed. -/
def step (wanted : α → Bool) (r : Record α) : Waiter α → Waiter α
  | noting => scanning r.number
  | scanning noted =>
    match r.items.find? wanted with
    | some item => found item
    | none => sleeping noted
  | sleeping noted => if r.number == noted then sleeping noted else noting
  | found item => found item

/-- As many steps as a waiter can take while nobody else takes any: at most three. -/
def settle (wanted : α → Bool) (r : Record α) (w : Waiter α) : Waiter α :=
  step wanted r (step wanted r (step wanted r w))

def found? : Waiter α → Option α
  | found item => some item
  | _ => none

end Waiter
end Record
end ServerProbe
