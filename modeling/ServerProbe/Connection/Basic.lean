import ServerProbe.Anomaly
import ServerProbe.Call.Table
import ServerProbe.Document.Store
import ServerProbe.Session.Basic
import ServerProbe.Session.Payload
import ServerProbe.Settings.Basic
/-!
One connection to a server: its session, calls, documents and handlers, and the server requests that
still have to be answered.

Everything that happens to a connection is an input, and what it does in return is a list of outputs;
`Connection.step` in a later module is the whole of its behaviour. Handlers are left abstract: the
type `η` names them.
-/

namespace ServerProbe

open Rpc (Id Message Notification Outcome Request Response)

inductive Link where
  | up
  /-- The server no longer takes any bytes. -/
  | lost
  /-- The client has closed the connection. -/
  | closed
deriving DecidableEq, Repr

/-- A server request with a handler that has not finished. -/
structure Pending (η : Type) where
  id : Id
  method : String
  params : Option Json
  handler : η
deriving Repr

structure Connection (η : Type) where
  session : Session
  calls : CallTable
  documents : DocumentStore
  config : ClientConfig
  /-- Whether notifications that nobody handles are reported. -/
  strict : Bool
  /-- Whether the server has answered a shutdown with a result. -/
  acknowledged : Bool
  requestHandlers : List (String × η)
  /-- All handlers of notifications, in the order they were registered. -/
  noticeHandlers : List (String × η)
  /-- Server requests in order of arrival. Only the handler of the first one runs. -/
  queue : List (Pending η)
  decoder : Framing.Decoder
  link : Link

/-- What a connection does in answer to an input. -/
inductive Output (η : Type) where
  | wrote (m : Message)
  | published (e : Event)
  | broadcast (n : Notification)
  /-- A handler of notifications was run. -/
  | noticed (handler : η) (n : Notification)
  /-- The handler of a server request was started. -/
  | called (handler : η) (params : Option Json)
  | resolved (id : Nat) (answer : Answered)
  /-- No more will be written, and nothing more read. -/
  | closed
deriving Repr

/-- The state after an input, and the outputs in order. -/
abbrev Turn (η : Type) : Type := Connection η × List (Output η)

namespace Turn

variable {η : Type}

/-- Goes on from the state of one turn, and lines up the outputs. -/
def andThen (t : Turn η) (next : Connection η → Turn η) : Turn η :=
  let (c, out) := next t.1
  (c, t.2 ++ out)

/-- One turn for each item, one after the other. -/
def each {α : Type} (turn : α → Connection η → Turn η) : List α → Connection η → Turn η
  | [], c => (c, [])
  | a :: rest, c => andThen (turn a c) (each turn rest)

end Turn

namespace Connection

variable {η : Type}

def fresh (config : ClientConfig) : Connection η :=
  { session := .fresh, calls := .fresh config.quarantine, documents := .empty, config
    strict := config.strict, acknowledged := false, requestHandlers := [], noticeHandlers := []
    queue := [], decoder := .fresh, link := .up }

def state (c : Connection η) : Session.State := c.session.state

/-- Writes a message if the link is up. -/
def write (c : Connection η) (m : Message) : Except Failure (List (Output η)) :=
  match c.link with
  | .up => .ok [.wrote m]
  | .lost => .error (.transportClosed "writer task is gone")
  | .closed => .error (.transportClosed "transport closed")

def tryWrite (c : Connection η) (m : Message) : List (Output η) :=
  match c.write m with
  | .ok out => out
  | .error _ => []

def notice (method : String) (params : Json) : Message := .notification ⟨method, some params⟩

/-- Tells the server that a call is of no more interest, where the state allows it. -/
def cancelNotice (c : Connection η) (id : Nat) : List (Output η) :=
  match c.session.checkNotification Method.cancelRequest with
  | .ok _ => c.tryWrite (notice Method.cancelRequest (Payload.cancel id))
  | .error _ => []

/-- Ends the session, once, and closes the link. All outstanding calls fail. -/
def terminate (c : Connection η) (reason : ExitReason) (failure : Failure) : Turn η :=
  let closing : List (Output η) := if c.link == .closed then [] else [.closed]
  match c.session.exit reason with
  | none => ({ c with link := .closed }, closing)
  | some session =>
    ({ c with session, calls := c.calls.clear, queue := [], link := .closed },
      c.calls.outstanding.map (fun id => .resolved id (.error failure))
        ++ [.published (.stateChanged .exited), .published (.exited reason)] ++ closing)

end Connection
end ServerProbe
