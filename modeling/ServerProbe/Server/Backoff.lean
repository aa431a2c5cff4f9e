import ServerProbe.Failure
import ServerProbe.Server.Endpoint
/-!
Connecting to a socket again and again. Each wait is twice as long as the one before, up to a greatest
wait, and no wait is begun that would exceed the budget.
-/

namespace ServerProbe

structure Backoff where
  first : Span
  greatest : Span
  budget : Span
deriving DecidableEq, Repr

namespace Backoff

def standard : Backoff := ⟨.ofMillis 100, .ofSeconds 1, .ofSeconds 10⟩

/-- The wait after failed attempt number `attempt`, counted from zero. Doubling stops after sixteen
times. -/
def delay (b : Backoff) (attempt : Nat) : Span :=
  ⟨min (b.first.nanos * Nat.pow 2 (min attempt 16)) b.greatest.nanos⟩

/-- What came of trying: the waits that were made, and either a connection or the number of attempts
that is reported with the last error. -/
structure Dialled (ε α : Type) where
  waits : List Span
  outcome : Except (UInt32 × ε) α

/-- Tries until an attempt succeeds or the budget is spent; `connect` tells what comes of each attempt.
Time passes only in the waits: `slept` nanoseconds so far, `failed` attempts having failed. These are
counted in 32 bits, and after the greatest count comes nought again. A backoff that waits no time at all
would try for ever, and gives nothing. -/
def dialFrom {ε α : Type} (b : Backoff) (connect : Nat → Except ε α) (failed : Nat) (count : UInt32)
    (slept : Nat) : Option (Dialled ε α) :=
  match connect failed with
  | .ok stream => some ⟨[], .ok stream⟩
  | .error e =>
    if spent : b.budget.nanos < slept + (b.delay count.toNat).nanos then
      some ⟨[], .error (count + 1, e)⟩
    else if _waits : 0 < (b.delay count.toNat).nanos then
      (b.dialFrom connect (failed + 1) (count + 1) (slept + (b.delay count.toNat).nanos)).map fun d =>
        { d with waits := b.delay count.toNat :: d.waits }
    else none
termination_by b.budget.nanos - slept
decreasing_by omega

def dial {ε α : Type} (b : Backoff) (connect : Nat → Except ε α) : Option (Dialled ε α) :=
  b.dialFrom connect 0 0 0

/-- The failure that is reported when the budget is spent. -/
def exhausted (endpoint : Endpoint) (attempts : UInt32) (reason : String) : Failure :=
  .processSpawn endpoint.render
    ("connect failed after " ++ toString attempts ++ " attempts: " ++ reason)

end Backoff
end ServerProbe
