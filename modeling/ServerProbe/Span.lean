/-!
Lengths of time in whole nanoseconds, and their text: the largest unit of which there is at least
one, with as many decimals as the length needs.
-/

namespace ServerProbe

structure Span where
  nanos : Nat
deriving DecidableEq, Repr

namespace Span

def ofMillis (n : Nat) : Span := ⟨n * 1000000⟩

def ofSeconds (n : Nat) : Span := ⟨n * 1000000000⟩

def millis (s : Span) : Nat := s.nanos / 1000000

def zero : Span := ⟨0⟩

def add (a b : Span) : Span := ⟨a.nanos + b.nanos⟩

/-- The greatest length of time: all 64 bits of seconds and all nanoseconds. -/
def greatest : Span := ⟨UInt64.size * 1000000000 - 1⟩

/-- The digits of `n` behind a point, padded to `width` and without trailing zeros. -/
def decimals (width n : Nat) : String :=
  if n == 0 then "" else
    let ds := Nat.toDigits 10 n
    let padded := List.replicate (width - ds.length) '0' ++ ds
    "." ++ String.ofList (padded.reverse.dropWhile (· == '0')).reverse

def render (s : Span) : String :=
  let n := s.nanos
  if 1000000000 ≤ n then toString (n / 1000000000) ++ decimals 9 (n % 1000000000) ++ "s"
  else if 1000000 ≤ n then toString (n / 1000000) ++ decimals 6 (n % 1000000) ++ "ms"
  else if 1000 ≤ n then toString (n / 1000) ++ decimals 3 (n % 1000) ++ "µs"
  else toString n ++ "ns"

end Span
end ServerProbe
