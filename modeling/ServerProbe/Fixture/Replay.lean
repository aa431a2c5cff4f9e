import ServerProbe.Check.Await
import ServerProbe.Fixture.Report
import ServerProbe.Json.Containment
import ServerProbe.Routine.Client
/-!
Running a fixture against a live server. Every step is run, whatever came of those before, unless the
session cannot be initialized.
-/

namespace ServerProbe.Fixture

variable {η : Type}

/-- Passes if a document contains what is expected. -/
def requireContained (expected actual : Json) : Except CheckFailure Unit :=
  match Json.mismatch? expected actual with
  | none => .ok ()
  | some m => .error (.mismatch m)

/-- Whether what came of a request is what the step expects. -/
def checkAnswer : Answered → Expectation → Except CheckFailure Unit
  | .ok _, .success => .ok ()
  | .ok result, .result expected => requireContained expected result
  | .ok result, .error expected =>
    .error (.assertion ("expected error " ++ expected.compact ++ ", got result " ++ result.compact))
  | .error (.refused e), .error expected => requireContained expected e.toJson
  | .error failure, _ => .error (.client failure)

/-- Runs a step. A notification that is expected without params may have any object for them. -/
def runStep (defaultWait : Span) : FixtureStep → Routine η (Except CheckFailure Unit)
  | .request method params expect timeout => do
    return checkAnswer (← Client.request method params timeout) expect
  | .notify method params => do
    return (← Client.notify method params).mapError .client
  | .expectNotification method params mode timeout => do
    let expected := params.getD (.obj [])
    let seen ← Check.awaitNotification method (Check.hasParams expected) (timeout.getD defaultWait) mode
    return seen.map fun _ => ()

def outcomeOf : Except CheckFailure Unit → StepOutcome
  | .ok _ => .passed
  | .error failure => .failed failure.message

/-- Runs a routine and tells how long it took. -/
def timed {α : Type} (r : Routine η α) : Routine η (α × Span) := do
  let start ← Routine.question .now
  let a ← r
  let stop ← Routine.question .now
  return (a, ⟨stop - start⟩)

/-- Runs the steps; `index` counts up from the first one's. -/
def runSteps (defaultWait : Span) : (index : Nat) → List FixtureStep → Routine η (List StepReport)
  | _, [] => pure []
  | index, step :: rest => do
    let (result, elapsed) ← timed (runStep defaultWait step)
    let reports ← runSteps defaultWait (index + 1) rest
    return ⟨index, step.describe, outcomeOf result, elapsed⟩ :: reports

/-- The reports on steps that were not run. -/
def skipSteps (index : Nat) : List FixtureStep → List StepReport
  | [] => []
  | step :: rest => ⟨index, step.describe, .skipped, .zero⟩ :: skipSteps (index + 1) rest

/-- Makes the handshake, with the fixture's own params if it has any. -/
def runHandshake (f : Fixture) : Routine η StepReport := do
  let params := f.handshake.getD (Payload.handshake (some f.workspaceUri))
  let (answer, elapsed) ← timed (Client.handshake params)
  let outcome : StepOutcome :=
    match answer with
    | .ok _ => .passed
    | .error failure => .failed failure.message
  return ⟨0, "initialize", outcome, elapsed⟩

/-- Runs a fixture. The handshake comes first if the session has not begun. -/
def replay (f : Fixture) (defaultWait : Span) : Routine η Report := do
  match (← Routine.question .session).state with
  | .uninitialized =>
    let first ← runHandshake f
    match first.outcome with
    | .passed => return ⟨f.name, first :: (← runSteps defaultWait 1 f.steps)⟩
    | _ => return ⟨f.name, first :: skipSteps 1 f.steps⟩
  | _ => return ⟨f.name, ← runSteps defaultWait 1 f.steps⟩

end ServerProbe.Fixture
