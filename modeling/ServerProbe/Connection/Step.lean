import ServerProbe.Connection.Command
/-!
The behaviour of a connection. Inputs are commands of the client, what the server sends, ends of
handlers, and the passing of time; `Connection.step` takes one input at a moment, and
`Connection.run` a whole history.
-/

namespace ServerProbe

open Rpc (Id Message Notification Outcome Request Response)

/-- How a handler of a server request ended. -/
inductive HandlerEnd where
  | returned (outcome : Outcome)
  | panicked
deriving Repr

inductive Input (η : Type) where
  | command (c : Command η)
  | received (bytes : Bytes)
  /-- The server ended its output; its exit status is there if it was a process that ended too. -/
  | readEnded (status : Option ExitStatus)
  | readFailed (reason : String)
  | serverExited (status : ExitStatus)
  /-- Nothing more can come from the server. -/
  | transportEnded
  /-- The first handler in the queue finished. -/
  | finished (how : HandlerEnd)
  /-- A deadline may have passed. -/
  | deadline
  /-- The server no longer takes what is written. -/
  | writerLost
  /-- The last user of the client is gone. -/
  | abandoned
deriving Repr

namespace Connection

variable {η : Type}

def publish (c : Connection η) (e : Event) : Turn η := (c, [.published e])

def report (c : Connection η) (a : Anomaly) : Turn η := c.publish (.anomaly a)

/-! ### Responses -/

/-- A handshake that failed ends the session. -/
def failHandshake (c : Connection η) (id : Nat) (failure : Failure) : Turn η :=
  Turn.andThen (c, [.resolved id (.error failure)]) fun c =>
    c.terminate (.initializeFailed failure.message) (.transportClosed "initialize failed")

/-- A handshake that was answered with a result. The server hears that it is over before the caller
does. -/
def completeHandshake (c : Connection η) (id : Nat) (result : Json) : Turn η :=
  match c.session.completeHandshake result with
  | .error fault =>
    c.failHandshake id (.initializeFailed (.refused (.of Rpc.ErrorObject.invalidRequestCode fault.message)))
  | .ok session =>
    ({ c with session },
      .published (.stateChanged session.state)
        :: c.tryWrite (notice Method.initializedNotice (.obj [])) ++ [.resolved id (.ok result)])

def answerOf : Outcome → Answered
  | .ok result => .ok result
  | .error e => .error (.refused e)

/-- Resolves a call with the outcome its response carries. -/
def resolve (c : Connection η) (id : Nat) (call : Call) (outcome : Outcome) : Turn η :=
  let c := { c with acknowledged := c.acknowledged || (call.method == Method.shutdown && outcome.isOk) }
  if call.method == Method.initializeRequest && c.state == .initializing then
    match outcome with
    | .ok result => c.completeHandshake id result
    | .error e => c.failHandshake id (.initializeFailed (.refused e))
  else (c, [.resolved id (answerOf outcome)])

def receiveResponse (c : Connection η) (now : Time) (r : Response) : Turn η :=
  let (found, calls) := c.calls.takeForResponse now r.id
  let c := { c with calls }
  match found with
  | .outstanding id call => c.resolve id call r.outcome
  | .late method => c.report (.lateResponse r.id method)
  | .duplicate method => c.report (.duplicateResponse r.id method)
  | .unknown => c.report (.unsolicitedResponse r.id)

/-! ### Notifications and server requests -/

def handlersOf (c : Connection η) (method : String) : List η :=
  (c.noticeHandlers.filter fun h => h.1 == method).map Prod.snd

/-- Runs the handlers of a notification and passes it on to every subscriber. -/
def receiveNotification (c : Connection η) (n : Notification) : Turn η :=
  let handlers := c.handlersOf n.method
  let unhandled : List (Output η) :=
    if handlers.isEmpty && c.strict && !Method.isOptional n.method then
      [.published (.anomaly (.unhandledNotification n.method))]
    else []
  (c, handlers.map (fun h => .noticed h n) ++ unhandled ++ [.broadcast n])

/-- Writes a reply, unless the session is over. -/
def reply (c : Connection η) (r : Response) : Turn η :=
  if c.state.isExited then (c, []) else (c, c.tryWrite (.response r))

/-- Starts the handler of a server request, or answers at once that there is none. -/
def receiveRequest (c : Connection η) (r : Request) : Turn η :=
  match (c.requestHandlers.find? fun h => h.1 == r.method).map Prod.snd with
  | some handler =>
    ({ c with queue := c.queue ++ [⟨r.id, r.method, r.params, handler⟩] }, [.called handler r.params])
  | none => c.reply ⟨r.id, .error (.methodNotFound r.method)⟩

/-- The outcome that a handler's end stands for. -/
def outcomeOf (method : String) : HandlerEnd → Outcome
  | .returned outcome => outcome
  | .panicked => .error (.internal ("handler for " ++ method ++ " panicked"))

/-- The first handler in the queue has finished. -/
def finish (c : Connection η) (how : HandlerEnd) : Turn η :=
  match c.queue with
  | [] => (c, [])
  | p :: queue => { c with queue }.reply ⟨p.id, outcomeOf p.method how⟩

/-! ### Bytes -/

def receive (now : Time) (item : Framing.Decoded) (c : Connection η) : Turn η :=
  match item with
  | .ok (.response r) => c.receiveResponse now r
  | .ok (.notification n) => c.receiveNotification n
  | .ok (.request r) => c.receiveRequest r
  | .error fault => c.report (.ofFault fault)

def receiveAll (c : Connection η) (now : Time) (items : List Framing.Decoded) : Turn η :=
  Turn.each (receive now) items c

def receiveBytes (c : Connection η) (now : Time) (bytes : Bytes) : Turn η :=
  let (items, decoder) := c.decoder.feed bytes
  { c with decoder }.receiveAll now items

/-! ### Time and ends -/

/-- One call whose deadline has passed. -/
def timeOut (expired : Nat × Call) (c : Connection η) : Turn η :=
  let (id, call) := expired
  let failure : Failure := .timeout call.method (.number id) (call.timeout.getD .zero)
  Turn.andThen (c, c.cancelNotice id) fun c =>
    if call.method == Method.initializeRequest && c.state == .initializing then
      c.failHandshake id (.initializeFailed failure)
    else (c, [.resolved id (.error failure)])

/-- Gives up every call whose deadline has passed. -/
def expire (c : Connection η) (now : Time) : Turn η :=
  let (expired, calls) := c.calls.expire now
  Turn.each timeOut expired { c with calls }

/-- The server is gone. -/
def lose (c : Connection η) (reason : String) : Turn η :=
  if c.state.isExited then (c, []) else c.terminate (.transportLost reason) (.transportClosed reason)

def serverExit (c : Connection η) (status : ExitStatus) : Turn η :=
  if c.state.isExited then (c, []) else c.terminate (.processExited status) (.processExited status)

def step (c : Connection η) (now : Time) : Input η → Turn η
  | .command command => (c.handle now command).2
  | .received bytes => c.receiveBytes now bytes
  | .readEnded none => c.lose "server closed the connection"
  | .readEnded (some status) => c.serverExit status
  | .readFailed reason => c.lose reason
  | .serverExited status => c.serverExit status
  | .transportEnded => c.lose "transport ended"
  | .finished how => c.finish how
  | .deadline => c.expire now
  | .writerLost => (if c.link == .up then { c with link := .lost } else c, [])
  | .abandoned => c.terminate .graceful (.transportClosed "client dropped")

/-- The turn that a history of inputs leads to. -/
def run (c : Connection η) (history : List (Time × Input η)) : Turn η :=
  Turn.each (fun i c => c.step i.1 i.2) history c

end Connection
end ServerProbe
