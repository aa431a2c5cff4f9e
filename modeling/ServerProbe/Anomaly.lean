import ServerProbe.Framing.Decoder
import ServerProbe.Session.State
/-!
Irregularities in what a server sends. They are reported and never fail a call.
-/

namespace ServerProbe

inductive Anomaly where
  | malformedFrame (reason : String)
  | invalidEnvelope (fault : Rpc.EnvelopeFault) (raw : Json)
  /-- A response to nothing the client ever asked, or that it no longer remembers. -/
  | unsolicitedResponse (id : Rpc.Id)
  /-- A response to a call that was cancelled or timed out. -/
  | lateResponse (id : Rpc.Id) (method : String)
  | duplicateResponse (id : Rpc.Id) (method : String)
  | unhandledNotification (method : String)
deriving Repr

namespace Anomaly

def ofFault : Framing.DecodeFault → Anomaly
  | .frame fault => malformedFrame fault.message
  | .envelope fault raw => invalidEnvelope fault raw

def message : Anomaly → String
  | malformedFrame reason => "malformed frame: " ++ reason
  | invalidEnvelope fault _ => "invalid envelope: " ++ fault.message
  | unsolicitedResponse id => "response for unknown request id " ++ id.render
  | lateResponse id method => "late response for request " ++ id.render ++ " `" ++ method ++ "`"
  | duplicateResponse id method =>
    "duplicate response for request " ++ id.render ++ " `" ++ method ++ "`"
  | unhandledNotification method => "no handler for notification `" ++ method ++ "`"

/-- The name of an anomaly's kind, by which it can be awaited. -/
def kind : Anomaly → String
  | malformedFrame _ => "MalformedFrame"
  | invalidEnvelope _ _ => "InvalidEnvelope"
  | unsolicitedResponse _ => "UnsolicitedResponse"
  | lateResponse _ _ => "LateResponse"
  | duplicateResponse _ _ => "DuplicateResponse"
  | unhandledNotification _ => "UnhandledNotification"

end Anomaly

inductive Event where
  | anomaly (a : Anomaly)
  | stateChanged (s : Session.State)
  | exited (reason : ExitReason)
deriving Repr

end ServerProbe
