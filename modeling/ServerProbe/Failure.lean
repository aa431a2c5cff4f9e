import ServerProbe.Rpc.Message
import ServerProbe.Session.State
import ServerProbe.Span
/-!
Why an operation of the client fails.
-/

namespace ServerProbe

/-- Why an operation on a tracked document fails. -/
inductive DocumentFault where
  | notFound (uri : String)
  | versionMismatch (uri : String) (expected actual : Int)
deriving DecidableEq, Repr

def DocumentFault.message : DocumentFault → String
  | notFound uri => "document not found: " ++ uri
  | versionMismatch uri expected actual =>
    "version mismatch for " ++ uri ++ ": expected " ++ toString expected ++ ", found "
      ++ toString actual

inductive Failure where
  | processSpawn (command reason : String)
  | transportClosed (reason : String)
  | processExited (status : ExitStatus)
  | sessionNotReady (method : String) (state : Session.State)
  | initializeFailed (cause : Failure)
  | timeout (method : String) (id : Rpc.Id) (after : Span)
  | cancelled (id : Rpc.Id)
  /-- The server answered with an error object. -/
  | refused (error : Rpc.ErrorObject)
  | invalidMethod (method : String)
  | capabilityNotSupported (capability : String)
  | document (fault : DocumentFault)
deriving Repr, Inhabited

namespace Failure

def message : Failure → String
  | processSpawn command reason =>
    "failed to start language server `" ++ command ++ "`: " ++ reason
  | transportClosed reason => "transport closed: " ++ reason
  | processExited status => "language server exited (" ++ status.render ++ ")"
  | sessionNotReady method state =>
    "`" ++ method ++ "` is not allowed while the session is " ++ state.label
  | initializeFailed cause => "initialize failed: " ++ cause.message
  | timeout method id after =>
    "request " ++ id.render ++ " `" ++ method ++ "` timed out after " ++ after.render
  | cancelled id => "request " ++ id.render ++ " was cancelled"
  | refused e => "server error: " ++ e.render
  | invalidMethod method => "invalid method name " ++ Text.quoted method
  | capabilityNotSupported capability => "server does not advertise `" ++ capability ++ "`"
  | document fault => fault.message

/-- The server's error code, also when it made the handshake fail. -/
def code? : Failure → Option Int
  | refused e => some e.code
  | initializeFailed cause => cause.code?
  | _ => none

def isConnectionLost : Failure → Bool
  | transportClosed _ | processExited _ => true
  | _ => false

def isTimeout : Failure → Bool
  | timeout _ _ _ => true
  | _ => false

end Failure

/-- A call that is over: its result, or why it has none. -/
abbrev Answered : Type := Except Failure Json

end ServerProbe
