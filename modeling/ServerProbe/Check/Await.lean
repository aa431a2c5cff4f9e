import ServerProbe.Fixture.Basic
import ServerProbe.Routine.Basic
/-!
Waiting, for a limited time, until a server has sent something.
-/

namespace ServerProbe.Check

open Rpc (Notification)

variable {η : Type}

/-- No wait may be longer than ten minutes. -/
def greatestWait : Span := .ofSeconds 600

def checkWait (timeout : Span) : Except CheckFailure Unit :=
  if greatestWait.nanos < timeout.nanos then .error (.waitTooLong timeout greatestWait) else .ok ()

/-- Waits for a notification until a deadline: for one that comes from now on, or also for one that
came before. -/
def notificationBy (deadline : Time) (wanted : Notification → Bool) :
    ExpectMode → Routine η (Option Notification)
  | .next => do
    let skip ← Routine.question .seenSoFar
    Routine.question (.nextNotification skip wanted deadline)
  | .eventually => Routine.question (.recordedNotification .noting wanted deadline)

def awaitNotification (method : String) (accepts : Notification → Bool) (timeout : Span)
    (mode : ExpectMode) : Routine η (Except CheckFailure Notification) :=
  match checkWait timeout with
  | .error failure => pure (.error failure)
  | .ok _ => do
    let start ← Routine.question .now
    match ← notificationBy (start + timeout.nanos) (fun n => n.method == method && accepts n) mode with
    | some n => return .ok n
    | none => return .error (.notSeen ("`" ++ method ++ "` notification") timeout)

/-- Whether the params of a notification contain what is expected; absent params are null. -/
def hasParams (expected : Json) (n : Notification) : Bool := n.paramsOrNull.contains expected

/-- Whether an event is an anomaly that satisfies `accepts`. -/
def isAnomaly (accepts : Anomaly → Bool) : Event → Bool
  | .anomaly a => accepts a
  | _ => false

/-- Waits until an anomaly that satisfies `accepts` has been seen. -/
def awaitAnomaly (accepts : Anomaly → Bool) (timeout : Span) :
    Routine η (Except CheckFailure Anomaly) :=
  match checkWait timeout with
  | .error failure => pure (.error failure)
  | .ok _ => do
    let start ← Routine.question .now
    match ← Routine.question (.recordedEvent .noting (isAnomaly accepts) (start + timeout.nanos)) with
    | some (.anomaly a) => return .ok a
    | _ => return .error (.notSeen "protocol anomaly" timeout)

end ServerProbe.Check
