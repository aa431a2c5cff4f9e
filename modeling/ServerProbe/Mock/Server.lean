import ServerProbe.Check.Failure
import ServerProbe.Mock.World
/-!
The scripted end of a connection: reading what the client wrote, answering by a script, and waiting
for a message.
-/

namespace ServerProbe.Mock

open Rpc (Message Outcome)

/-- What is sent when a request of some method comes: a response, if any, and further messages. -/
structure ScriptedReply where
  outcome : Option Outcome
  follow : List Message
deriving Repr

/-- The replies that are left for each method. -/
abbrev ReplyScript : Type := List (String × List ScriptedReply)

def takeReply (method : String) : ReplyScript → Option (ScriptedReply × ReplyScript)
  | [] => none
  | (m, replies) :: rest =>
    if m == method then
      match replies with
      | [] => none
      | r :: left => some (r, (m, left) :: rest)
    else (takeReply method rest).map fun (r, left) => (r, (m, replies) :: left)

def ReplyScript.size (s : ReplyScript) : Nat := (s.map fun m => m.2.length).foldr Nat.add 0

abbrev Received : Type := Except CheckFailure Message

/-- A message as it is read from its written form. -/
def receive (m : Message) : Received :=
  match Message.ofJson m.toJson with
  | .ok m => .ok m
  | .error fault => .error (.mockServer (Framing.DecodeFault.envelope fault m.toJson).message)

def connectionClosed : CheckFailure := .mockServer "client closed the connection"

def brokenPipe : CheckFailure := .mockServer "broken pipe"

namespace World

variable {ρ : Type}

/-- Reads the next message of the client, or the end of its messages. -/
def read? (w : World ρ) : Option (Received × World ρ) :=
  match w.outbound with
  | m :: outbound => some (receive m, { w with outbound })
  | [] => if w.clientClosed then some (.error connectionClosed, w) else none

def send (w : World ρ) (bytes : Bytes) : Except CheckFailure (World ρ) :=
  if w.clientClosed || w.serverGone then .error brokenPipe
  else .ok { w with inbound := w.inbound ++ bytes }

/-- Writes to the client if it is still there. -/
def trySend (w : World ρ) (m : Message) : World ρ :=
  match w.send (Framing.encode m) with
  | .ok w => w
  | .error _ => w

def play (w : World ρ) (id : Rpc.Id) (r : ScriptedReply) : World ρ :=
  let answered := match r.outcome with
    | some outcome => w.trySend (.response ⟨id, outcome⟩)
    | none => w
  r.follow.foldl trySend answered

/-- Waits for the client's next message from a moment until a deadline. Time goes on from one moment at
which something is due to the next. -/
def awaitFrom (moment deadline : Time) (timeout : Span) (w : World ρ) : Received × World ρ :=
  let w := settle { w with now := moment }
  match w.read? with
  | some r => r
  | none =>
    if late : deadline ≤ moment then (.error (.notSeen "a message from the client" timeout), w)
    else awaitFrom (max (w.nextDue deadline) (moment + 1)) deadline timeout w
termination_by deadline - moment
decreasing_by exact Nat.sub_lt_sub_left (Nat.lt_of_not_le late) (Nat.lt_of_lt_of_le (Nat.lt_succ_self _) (Nat.le_max_right _ _))

def await (w : World ρ) (timeout : Span) : Received × World ρ :=
  w.awaitFrom w.now (w.now + timeout.nanos) timeout

end World

/-! ### Expected messages -/

def kindOf : Message → String
  | .request _ => "request"
  | .notification _ => "notification"
  | .response _ => "response"

def unexpected (wanted : String) (m : Message) : CheckFailure :=
  .mockServer ("expected " ++ wanted ++ ", got " ++ kindOf m ++ " " ++ m.method?.getD "(response)")

inductive Wanted where
  | anything
  | request (method : String)
  | notification (method : String)
  | response
deriving DecidableEq, Repr

namespace Wanted

def describe : Wanted → String
  | anything => "a message"
  | request method => "`" ++ method ++ "` request"
  | notification method => "`" ++ method ++ "` notification"
  | response => "a response"

def isMet : Wanted → Message → Bool
  | anything, _ => true
  | request method, .request r => r.method == method
  | notification method, .notification n => n.method == method
  | response, .response _ => true
  | _, _ => false

def check (wanted : Wanted) (got : Received) : Received := do
  let m ← got
  if wanted.isMet m then return m else throw (unexpected wanted.describe m)

end Wanted

/-! ### The handshake -/

/-- The result of a handshake that advertises some capabilities. -/
def handshakeResult (caps : Json) : Json :=
  .ofMembers [("capabilities", caps),
    ("serverInfo", .ofMembers [("name", .str "mock-server"), ("version", .str "0.0.0")])]

namespace World

variable {ρ : Type}

def paramsOf : Message → Json
  | .request r => Json.orNull r.params
  | _ => .null

def idOf : Message → Rpc.Id
  | .request r => r.id
  | _ => .number 0

/-- Plays the server's part of the handshake, and gives the client's params. -/
def completeHandshake (w : World ρ) (timeout : Span) (caps : Json) : Except CheckFailure Json × World ρ :=
  let (got, w) := w.await timeout
  match (Wanted.request Method.initializeRequest).check got with
  | .error failure => (.error failure, w)
  | .ok m =>
    match w.send (Framing.encode (.response ⟨idOf m, .ok (handshakeResult caps)⟩)) with
    | .error failure => (.error failure, w)
    | .ok w =>
      let (got, w) := w.await timeout
      match (Wanted.notification Method.initializedNotice).check got with
      | .error failure => (.error failure, w)
      | .ok _ => (.ok (paramsOf m), w)

end World
end ServerProbe.Mock
