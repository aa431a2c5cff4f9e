import ServerProbe.Json.Basic
import ServerProbe.Span
/-!
Fixtures: recorded interactions that can be run against a server.
-/

namespace ServerProbe

/-- What a request has to be answered with: any result, a result that contains a document, or an
error that contains one. -/
inductive Expectation where
  | success
  | result (expected : Json)
  | error (expected : Json)
deriving Repr

/-- Whether an expected notification has to come after the wait began, or may have come before. -/
inductive ExpectMode where
  | next
  | eventually
deriving DecidableEq, Repr

namespace ExpectMode

def label : ExpectMode → String
  | next => "next"
  | eventually => "eventually"

def ofLabel (label : String) : ExpectMode := if label == "eventually" then eventually else next

end ExpectMode

inductive FixtureStep where
  | request (method : String) (params : Option Json) (expect : Expectation) (timeout : Option Span)
  | notify (method : String) (params : Option Json)
  | expectNotification (method : String) (params : Option Json) (mode : ExpectMode)
    (timeout : Option Span)
deriving Repr

def FixtureStep.describe : FixtureStep → String
  | request method _ _ _ => "request " ++ method
  | notify method _ => "notify " ++ method
  | expectNotification method _ _ _ => "expect notification " ++ method

/-- The params of the handshake are the client's own where the fixture gives none. -/
structure Fixture where
  name : String
  path : String
  workspace : String
  workspaceUri : String
  handshake : Option Json
  steps : List FixtureStep
deriving Repr

end ServerProbe
