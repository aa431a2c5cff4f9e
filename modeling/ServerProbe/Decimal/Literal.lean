import ServerProbe.Decimal.Binary64
/-!
The value of a decimal literal that is not a small integer.

A literal is read as a 64-bit significand and a power of ten: once another digit would not fit,
later digits no longer count, except that those before the point still scale the number. The value
is the significand as a double, then one rounded product or quotient by a power of ten.
-/

namespace ServerProbe.Decimal

open ServerProbe (Binary64)

def greatestWord : Nat := UInt64.size - 1

/-- The greatest exponent a literal may spell out before it counts as unbounded. -/
def greatestSpelled : Nat := UInt32.size / 2 - 1

/-- The parts of a literal: its sign, the digits before and after the point, and its exponent. -/
structure Literal where
  negative : Bool
  whole : List Nat
  fraction : Option (List Nat)
  exponent : Option (Bool × List Nat)

/-- A significand and the power of ten that scales it. -/
structure Scaled where
  significand : Nat
  power : Int

/-- Reads digits into the significand as long as they fit in 64 bits; the rest is returned. -/
def takeFitting : Nat → List Nat → Nat × List Nat
  | s, [] => (s, [])
  | s, d :: rest => if s * 10 + d ≤ greatestWord then takeFitting (s * 10 + d) rest else (s, d :: rest)

def Literal.scaled (l : Literal) : Scaled :=
  let (s, dropped) := takeFitting 0 l.whole
  let (s', later) := takeFitting s (l.fraction.getD [])
  let counted := (l.fraction.getD []).length - later.length
  ⟨s', (dropped.length : Int) - counted⟩

/-- Divides by `10 ^ 308` until the remaining power of ten is in the table's range. -/
def settle : Nat → Binary64 → Int → Option Binary64
  | 0, x, _ => some x
  | fuel + 1, x, power =>
    if power.natAbs ≤ 308 then
      if 0 ≤ power then x.timesPowerOfTen power.natAbs else x.overPowerOfTen power.natAbs
    else if x.isZero then some x
    else if 0 ≤ power then none
    else (x.overPowerOfTen 308).bind fun y => settle fuel y (power + 308)

/-- The double a significand and a power of ten stand for; `none` when it is out of range. -/
def Scaled.toDouble (s : Scaled) : Option Binary64 :=
  (Binary64.round s.significand 1).bind fun x => settle 8 x s.power

/-- The spelled exponent, or `none` when it is too long to be counted. -/
def spelled : List Nat → Option Nat
  | ds =>
    let n := ds.foldl (fun n d => min (n * 10 + d) (greatestSpelled + 1)) 0
    if n ≤ greatestSpelled then some n else none

/-- The double a literal stands for; `none` when it is out of range. -/
def Literal.toDouble (l : Literal) : Option Binary64 :=
  let s := l.scaled
  let magnitude := match l.exponent with
    | none => s.toDouble
    | some (down, ds) =>
      match spelled ds with
      | none => if s.significand != 0 && !down then none else some (Binary64.zero false)
      | some n => Scaled.toDouble { s with power := if down then s.power - (n : Int) else s.power + (n : Int) }
  magnitude.map fun x => if l.negative then x.negate else x

/-- The integer a literal without fraction and exponent stands for, when it fits: unsigned up to 64
bits, negative down to `-2 ^ 63`. Negative zero is no integer. -/
def Literal.toInt? (l : Literal) : Option Int :=
  match l.fraction, l.exponent with
  | none, none =>
    let n : Nat := l.whole.foldl (fun n d => n * 10 + d) 0
    if l.negative then if n ≠ 0 ∧ n ≤ UInt64.size / 2 then some (-(n : Int)) else none
    else if n ≤ greatestWord then some (n : Int) else none
  | _, _ => none

end ServerProbe.Decimal
