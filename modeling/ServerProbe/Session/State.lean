/-!
The life of one connection: the states it passes through and the ways it can end.
-/

namespace ServerProbe

namespace Session

inductive State where
  | uninitialized
  | initializing
  | initialized
  | shuttingDown
  | exited
deriving DecidableEq, Repr

namespace State

def label : State → String
  | uninitialized => "uninitialized"
  | initializing => "initializing"
  | initialized => "initialized"
  | shuttingDown => "shutting down"
  | exited => "exited"

def isExited (s : State) : Bool := s == exited

def all : List State := [uninitialized, initializing, initialized, shuttingDown, exited]

def ofLabel? (label : String) : Option State := all.find? fun s => s.label == label

end State

end Session

/-- How a server process ended, as far as it is known. -/
structure ExitStatus where
  code : Option Int
  signal : Option Int
deriving DecidableEq, Repr

namespace ExitStatus

def unknown : ExitStatus := ⟨none, none⟩

def success (s : ExitStatus) : Bool := s.code == some 0

def render (s : ExitStatus) : String :=
  match s.code, s.signal with
  | some code, _ => "exit code " ++ toString code
  | none, some signal => "killed by signal " ++ toString signal
  | none, none => "unknown exit status"

end ExitStatus

inductive ExitReason where
  /-- The exit notification followed a successful shutdown, or the caller closed the connection. -/
  | graceful
  /-- The exit notification was sent without a successful shutdown. -/
  | forced (reason : String)
  | initializeFailed (reason : String)
  | processExited (status : ExitStatus)
  | transportLost (reason : String)
deriving DecidableEq, Repr

namespace ExitReason

def isAbnormal : ExitReason → Bool
  | graceful => false
  | _ => true

def render : ExitReason → String
  | graceful => "graceful shutdown"
  | forced reason => "forced exit: " ++ reason
  | initializeFailed reason => "initialize failed: " ++ reason
  | processExited status => "server exited unexpectedly (" ++ status.render ++ ")"
  | transportLost reason => "transport lost: " ++ reason

end ExitReason
end ServerProbe
