import ServerProbe.Failure
import ServerProbe.Method
import ServerProbe.Session.Capabilities
/-!
One session: its state, what the server advertised, and why it ended. The gates tell which messages
a client may send in a state.
-/

namespace ServerProbe.Session

def requestAllowed : State → String → Bool
  | .uninitialized, method => method == Method.initializeRequest
  | .initialized, method => method != Method.initializeRequest
  | _, _ => false

def notificationAllowed : State → String → Bool
  | .uninitialized, method => method == Method.exit
  | .initializing, method => method == Method.exit || Method.isOptional method
  | .initialized, method => method != Method.initializedNotice
  | .shuttingDown, method => method == Method.exit || method == Method.cancelRequest
  | .exited, _ => false

end Session

/-- The capabilities are there once the handshake has succeeded, the reason once the session is
over. -/
structure Session where
  state : Session.State
  capabilities : Option Capabilities
  reason : Option ExitReason
deriving Repr

namespace Session

def fresh : Session := ⟨.uninitialized, none, none⟩

/-- Why the current state forbids a method. A session that died with its server says so. -/
def refusal (s : Session) (method : String) : Failure :=
  match s.reason with
  | some (.processExited status) => .processExited status
  | some (.transportLost reason) => .transportClosed reason
  | _ => .sessionNotReady method s.state

def checkRequest (s : Session) (method : String) : Except Failure Unit :=
  if requestAllowed s.state method then .ok () else .error (s.refusal method)

def checkNotification (s : Session) (method : String) : Except Failure Unit :=
  if notificationAllowed s.state method then .ok () else .error (s.refusal method)

/-- The state that a request leads to once it has been written. -/
def stateAfterRequest : State → String → Option State
  | .uninitialized, method => if method == Method.initializeRequest then some .initializing else none
  | .initialized, method => if method == Method.shutdown then some .shuttingDown else none
  | _, _ => none

/-- Takes the capabilities from the handshake's result and enters the initialized state. -/
def completeHandshake (s : Session) (result : Json) : Except HandshakeFault Session :=
  (Capabilities.ofResult result).map fun caps =>
    { s with state := .initialized, capabilities := some caps }

/-- Ends the session; one that is over stays as it is. -/
def exit (s : Session) (reason : ExitReason) : Option Session :=
  if s.state.isExited then none else some { s with state := .exited, reason := some reason }

end Session

def Method.check (method : String) : Except Failure Unit :=
  if Method.isValid method then .ok () else .error (.invalidMethod method)

end ServerProbe
