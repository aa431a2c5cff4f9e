import ServerProbe.Failure
import ServerProbe.Json.Containment
/-!
Why a check of a server fails.
-/

namespace ServerProbe

inductive CheckFailure where
  /-- What was waited for did not come in time. -/
  | notSeen (what : String) (after : Span)
  | waitTooLong (requested greatest : Span)
  | fixture (path reason : String)
  | mismatch (m : Mismatch)
  | assertion (reason : String)
  /-- The scripted server at the other end could not go on. -/
  | mockServer (reason : String)
  | client (failure : Failure)
deriving Repr, Inhabited

def CheckFailure.message : CheckFailure → String
  | notSeen what after => "timed out after " ++ after.render ++ " waiting for " ++ what
  | waitTooLong requested greatest =>
    "invalid wait of " ++ requested.render ++ ": waits must not exceed " ++ greatest.render
  | fixture path reason => "fixture " ++ path ++ ": " ++ reason
  | mismatch m => m.message
  | assertion reason => "assertion failed: " ++ reason
  | mockServer reason => "mock server: " ++ reason
  | client failure => failure.message

end ServerProbe
