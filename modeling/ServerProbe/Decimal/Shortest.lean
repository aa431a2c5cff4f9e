import ServerProbe.Decimal.Binary64
/-!
The shortest decimal that reads back as a given double.

The reals that round to a double form an interval. For one digit, two digits and so on, the two
neighbours of the double on that decimal grid are tested against the interval; the first grid with
a hit gives the digits, and of two hits the nearer one is taken.
-/

namespace ServerProbe.Decimal

open ServerProbe (Binary64)

/-- `0.d₁d₂… · 10 ^ point`, the digits being those of `digits`. -/
structure Digits where
  digits : List Nat
  point : Int
deriving DecidableEq, Repr

/-- The decimal digits of a number, most significant first. -/
def digitsOf (n : Nat) : List Nat := (Nat.toDigits 10 n).map fun c => c.toNat - 48

/-- How many powers of ten lie above `num / den`, searched upwards from one digit. -/
def pointAbove (num den : Nat) : Nat → Nat → Nat
  | 0, k => k
  | fuel + 1, k => if num < den * Nat.pow 10 k then k else pointAbove num den fuel (k + 1)

/-- How many leading zeros follow the decimal point of `num / den`. -/
def zerosBelow (num den : Nat) : Nat → Nat → Nat
  | 0, k => k
  | fuel + 1, k => if den ≤ num * Nat.pow 10 (k + 1) then k else zerosBelow num den fuel (k + 1)

/-- The `p` with `10 ^ (p - 1) ≤ num / den < 10 ^ p`. -/
def pointOf (num den : Nat) : Int :=
  if den ≤ num then (pointAbove num den 400 0 : Int) else -(zerosBelow num den 400 0 : Int)

/-- The reals that round to a positive double, over the common denominator `scale`. -/
structure Interval where
  low : Nat
  value : Nat
  high : Nat
  scale : Nat
  closed : Bool

def intervalOf (x : Binary64) : Interval :=
  let below := if x.mantissa == Nat.pow 2 52 && x.exponent > Binary64.leastExponent then 1 else 2
  let e := x.exponent - 2
  let up := if 0 ≤ e then Nat.pow 2 e.toNat else 1
  { low := (4 * x.mantissa - below) * up
    value := 4 * x.mantissa * up
    high := (4 * x.mantissa + 2) * up
    scale := if 0 ≤ e then 1 else Nat.pow 2 (-e).toNat
    closed := x.mantissa % 2 == 0 }

/-- Whether `num / den` lies in the interval. -/
def Interval.holds (i : Interval) (num den : Nat) : Bool :=
  let n := num * i.scale
  if i.closed then decide (i.low * den ≤ n) && decide (n ≤ i.high * den)
  else decide (i.low * den < n) && decide (n < i.high * den)

/-- The neighbour of the interval's value with `count` digits that lies in the interval. -/
def Interval.onGrid (i : Interval) (point : Int) (count : Nat) : Option Nat :=
  let unit : Int := point - count
  let up := if 0 ≤ unit then Nat.pow 10 unit.toNat else 1
  let down := if 0 ≤ unit then 1 else Nat.pow 10 (-unit).toNat
  let num := i.value * down
  let den := i.scale * up
  let c := num / den
  let lower := i.holds (c * up) down
  let upper := i.holds ((c + 1) * up) down
  if lower && upper then
    if 2 * (num % den) < den then some c
    else if den < 2 * (num % den) then some (c + 1)
    else some (if c % 2 == 0 then c else c + 1)
  else if lower then some c
  else if upper then some (c + 1)
  else none

/-- The first grid from `count` digits on with a hit. -/
def Interval.shortest (i : Interval) (point : Int) : Nat → Nat → Nat × Nat
  | 0, count => (i.value / i.scale, count)
  | fuel + 1, count =>
    match i.onGrid point count with
    | some c => (c, count)
    | none => i.shortest point fuel (count + 1)

def trimZeros (ds : List Nat) : List Nat := (ds.reverse.dropWhile (· == 0)).reverse

def shortest (x : Binary64) : Digits :=
  if x.isZero then ⟨[0], 1⟩ else
    let i := intervalOf x
    let point := pointOf i.value i.scale
    let (c, count) := i.shortest point 17 1
    let ds := digitsOf c
    ⟨trimZeros ds, point + ds.length - count⟩

/-- Numbers with a decimal exponent from -5 to 15 are written positionally, with at least one digit
after the point; all others have one digit before the point and a signed exponent. -/
def Digits.render (d : Digits) : String :=
  let text (ds : List Nat) : String := String.ofList (ds.map fun n => Char.ofNat (48 + n))
  let e := d.point - 1
  if e < -5 ∨ 16 ≤ e then
    let head := text (d.digits.take 1)
    let tail := text (d.digits.drop 1)
    let mark := if tail.isEmpty then head else head ++ "." ++ tail
    mark ++ "e" ++ (if e < 0 then "-" else "+") ++ toString e.natAbs
  else if e < 0 then
    "0." ++ String.ofList (List.replicate (-e - 1).toNat '0') ++ text d.digits
  else
    let whole := d.point.toNat
    if d.digits.length ≤ whole then
      text d.digits ++ String.ofList (List.replicate (whole - d.digits.length) '0') ++ ".0"
    else text (d.digits.take whole) ++ "." ++ text (d.digits.drop whole)

end ServerProbe.Decimal

namespace ServerProbe

/-- A double in its shortest form; negative zero keeps its sign. -/
def Binary64.render (x : Binary64) : String :=
  (if x.negative then "-" else "") ++ (Decimal.shortest x).render

end ServerProbe
