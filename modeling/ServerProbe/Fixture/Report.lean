import ServerProbe.Span
/-!
What came of running a fixture, step by step.
-/

namespace ServerProbe

inductive StepOutcome where
  | passed
  | failed (reason : String)
  /-- The session could not be initialized, so the step was not run. -/
  | skipped
deriving DecidableEq, Repr

/-- Steps count from one; the handshake, where it is not a step of the fixture, has index zero. -/
structure StepReport where
  index : Nat
  description : String
  outcome : StepOutcome
  elapsed : Span
deriving Repr

structure Report where
  fixture : String
  steps : List StepReport
deriving Repr

namespace Report

def passed (r : Report) : Bool := r.steps.all fun s => s.outcome == .passed

def failures (r : Report) : List StepReport := r.steps.filter fun s => s.outcome != .passed

def outcomeText : StepOutcome → String
  | .passed => "ok"
  | .failed reason => "FAILED: " ++ reason
  | .skipped => "skipped"

def stepText (s : StepReport) : String :=
  "  [" ++ toString s.index ++ "] " ++ s.description ++ " (" ++ toString s.elapsed.millis ++ " ms) "
    ++ outcomeText s.outcome ++ "\n"

def render (r : Report) : String :=
  "fixture " ++ r.fixture ++ ": " ++ (if r.passed then "ok" else "FAILED") ++ "\n"
    ++ String.join (r.steps.map stepText)

end Report
end ServerProbe
