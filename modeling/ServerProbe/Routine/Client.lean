import ServerProbe.Routine.Basic
/-!
What a client does on its connection, as routines.
-/

namespace ServerProbe.Client

open Rpc (Id)

variable {η : Type}

/-- The failure of every operation once the connection has stopped. -/
def stopped : Failure := .transportClosed "connection task has stopped"

/-- An answer that a stopped connection does not give. -/
def orStopped {α : Type} : Option α → Except Failure α
  | some a => .ok a
  | none => .error stopped

def flatten {α : Type} : Option (Except Failure α) → Except Failure α
  | some a => a
  | none => .error stopped

def startRequest (method : String) (params : Option Json) (timeout : Option Span) :
    Routine η (Except Failure Nat) :=
  match Method.check method with
  | .error failure => pure (.error failure)
  | .ok _ => do return flatten (← Routine.question (.command (.request method params timeout)))

/-- Sends a request and waits for what comes of it. -/
def request (method : String) (params : Option Json) (timeout : Option Span) :
    Routine η Answered := do
  match ← startRequest method params timeout with
  | .error failure => return .error failure
  | .ok id => Routine.question (.reply id)

def notify (method : String) (params : Option Json) : Routine η (Except Failure Unit) :=
  match Method.check method with
  | .error failure => pure (.error failure)
  | .ok _ => do return flatten (← Routine.question (.command (.notify method params)))

def handshake (params : Json) : Routine η Answered := request Method.initializeRequest (some params) none

def cancel (id : Id) : Routine η (Except Failure Bool) := do
  return orStopped (← Routine.question (.command (.cancel id)))

def close : Routine η Unit := do
  let _ ← Routine.question (.command .close)

/-- Whether the exit notification follows a shutdown that came to this. It does unless the shutdown
could not be sent or the session ended under way. -/
def exitFollows : Answered → Bool
  | .ok _ | .error (.refused _) | .error (.timeout _ _ _) => true
  | .error _ => false

/-- Stops the server: a shutdown request, the exit notification, and the end of the connection. The
first failure is the result. -/
def shutdown (timeout : Span) : Routine η (Except Failure Unit) := do
  let answer ← request Method.shutdown none (some timeout)
  let left ← if exitFollows answer then notify Method.exit none else pure (.ok ())
  close
  match answer with
  | .error failure => return .error failure
  | .ok _ => return left

def waitForState (state : Session.State) : Routine η Session.State := Routine.question (.reached state)

def waitForExit : Routine η (Option ExitReason) := do
  let _ ← Routine.question (.reached .exited)
  return (← Routine.question .session).reason

def outstanding : Routine η (Except Failure (List Nat)) := do
  return orStopped (← Routine.question (.command .outstanding))

def openDocument (uri language text : String) : Routine η (Except Failure Bool) := do
  return flatten (← Routine.question (.command (.openDocument uri language text)))

def changeDocument (uri text : String) : Routine η (Except Failure Int) := do
  return flatten (← Routine.question (.command (.changeDocument uri text none)))

def closeDocument (uri : String) : Routine η (Except Failure Bool) := do
  return flatten (← Routine.question (.command (.closeDocument uri)))

def document (uri : String) : Routine η (Except Failure (Option Document)) := do
  return orStopped (← Routine.question (.command (.document uri)))

/-- A command that is given without waiting for it to be carried out. -/
def tell (c : Command η) (done : c.Answer → Unit) : Routine η (Except Failure Unit) := do
  return (orStopped (← Routine.question (.command c))).map done

def setStrict (strict : Bool) : Routine η (Except Failure Unit) := tell (.setStrict strict) id

/-- Registers a handler under a method that can be a method. -/
def onRequest (method : String) (handler : η) : Routine η (Except Failure Unit) :=
  match Method.check method with
  | .error failure => pure (.error failure)
  | .ok _ => tell (.onRequest method handler) id

def onNotification (method : String) (handler : η) : Routine η (Except Failure Unit) :=
  match Method.check method with
  | .error failure => pure (.error failure)
  | .ok _ => tell (.onNotification method handler) id

/-- Whether the server advertised a capability. Before the handshake nothing is known. -/
def checkCapability (s : Session) (capability : String) : Except Failure Unit :=
  match s.capabilities with
  | none => .error (.sessionNotReady capability s.state)
  | some caps =>
    if caps.supports capability then .ok () else .error (.capabilityNotSupported capability)

/-- Whether the server advertised what a method depends on. -/
def checkMethodSupport (s : Session) (method : String) : Except Failure Unit :=
  match Method.capability? method with
  | some capability => checkCapability s capability
  | none => .ok ()

end ServerProbe.Client
