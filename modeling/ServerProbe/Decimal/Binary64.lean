/-!
Finite double-precision numbers as exact dyadic rationals.

Rounding is done once, in `Binary64.round`, on a quotient of natural numbers; multiplication and
division by powers of ten are rounded products and quotients of exact values.
-/

namespace ServerProbe

/-- A finite double: `mantissa · 2 ^ exponent`, negated when `negative`. Canonical values have
either `2 ^ 52 ≤ mantissa < 2 ^ 53`, or the least exponent and a smaller mantissa. -/
structure Binary64 where
  negative : Bool
  mantissa : Nat
  exponent : Int
deriving DecidableEq, Repr

namespace Binary64

def leastExponent : Int := -1074

def greatestExponent : Int := 971

def zero (negative : Bool) : Binary64 := ⟨negative, 0, leastExponent⟩

def isZero (x : Binary64) : Bool := x.mantissa == 0

def negate (x : Binary64) : Binary64 := { x with negative := !x.negative }

/-- Numeric equality: the two zeros are one number. -/
def same (x y : Binary64) : Bool := x == y || (x.isZero && y.isZero)

/-- The quotient rounded to a whole number, a half going to the even neighbour. -/
def nearestEven (num den : Nat) : Nat :=
  let q := num / den
  let r := num % den
  if 2 * r < den then q
  else if den < 2 * r then q + 1
  else if q % 2 == 0 then q else q + 1

/-- The exponent that gives `num / den` a mantissa of 53 bits, or the least one. -/
def scaleOf (num den : Nat) : Int :=
  let guess : Int := (num.log2 : Int) - (den.log2 : Int) - 52
  let fits (e : Int) : Bool :=
    if 0 ≤ e then decide (num < Nat.pow 2 53 * Nat.pow 2 e.toNat * den)
    else decide (num * Nat.pow 2 (-e).toNat < Nat.pow 2 53 * den)
  max leastExponent (if fits (guess - 1) then guess - 1 else if fits guess then guess else guess + 1)

/-- The double nearest to `num / den`, with ties to even; `none` when it is out of range. -/
def round (num den : Nat) : Option Binary64 :=
  if num == 0 then some (zero false) else
    let e := scaleOf num den
    let m := if 0 ≤ e then nearestEven num (den * Nat.pow 2 e.toNat)
      else nearestEven (num * Nat.pow 2 (-e).toNat) den
    let (m, e) := if m == Nat.pow 2 53 then (Nat.pow 2 52, e + 1) else (m, e)
    if e > greatestExponent then none else some ⟨false, m, e⟩

/-- The magnitude as an exact quotient. -/
def ratio (x : Binary64) : Nat × Nat :=
  if 0 ≤ x.exponent then (x.mantissa * Nat.pow 2 x.exponent.toNat, 1)
  else (x.mantissa, Nat.pow 2 (-x.exponent).toNat)

def powerOfTen (k : Nat) : Option Binary64 := round (Nat.pow 10 k) 1

/-- The rounded product of a magnitude and the double nearest to `10 ^ k`. -/
def timesPowerOfTen (x : Binary64) (k : Nat) : Option Binary64 := do
  let p ← powerOfTen k
  round (x.ratio.1 * p.ratio.1) (x.ratio.2 * p.ratio.2)

/-- The rounded quotient of a magnitude and the double nearest to `10 ^ k`. -/
def overPowerOfTen (x : Binary64) (k : Nat) : Option Binary64 := do
  let p ← powerOfTen k
  round (x.ratio.1 * p.ratio.2) (x.ratio.2 * p.ratio.1)

end Binary64
end ServerProbe
