import ServerProbe.Connection.Basic
/-!
What a client may ask of its connection. Every command is answered at once; the result of a request
comes later, as the output `resolved`.
-/

namespace ServerProbe

open Rpc (Id Message)

inductive Command (η : Type) where
  | request (method : String) (params : Option Json) (timeout : Option Span)
  | notify (method : String) (params : Option Json)
  | onRequest (method : String) (handler : η)
  | onNotification (method : String) (handler : η)
  | cancel (id : Id)
  | setStrict (strict : Bool)
  | outstanding
  | openDocument (uri language text : String)
  | changeDocument (uri text : String) (base : Option Int32)
  | closeDocument (uri : String)
  | document (uri : String)
  | close
deriving Repr

abbrev Command.Answer {η : Type} : Command η → Type
  | request _ _ _ => Except Failure Nat
  | notify _ _ => Except Failure Unit
  | onRequest _ _ | onNotification _ _ | setStrict _ | close => Unit
  | cancel _ => Bool
  | outstanding => List Nat
  | openDocument _ _ _ => Except Failure Bool
  | changeDocument _ _ _ => Except Failure Int
  | closeDocument _ => Except Failure Bool
  | document _ => Option Document

namespace Connection

variable {η : Type}

/-- How long the response to a request is waited for where the caller does not say. -/
def defaultTimeout (c : Connection η) (method : String) : Option Span :=
  if method == Method.initializeRequest then c.config.handshakeTimeout else c.config.requestTimeout

/-- Sends a request under a new id. One that is refused or cannot be written leaves no call behind. -/
def sendRequest (c : Connection η) (now : Time) (method : String) (params : Option Json)
    (timeout : Option Span) : Except Failure Nat × Turn η :=
  match Method.check method, c.session.checkRequest method with
  | .error failure, _ => (.error failure, c, [])
  | .ok _, .error failure => (.error failure, c, [])
  | .ok _, .ok _ =>
    let (id, calls) := c.calls.insert now method (timeout <|> c.defaultTimeout method)
    match c.write (.request ⟨.number id, method, params⟩) with
    | .error failure => (.error failure, { c with calls := calls.forget id }, [])
    | .ok wrote =>
      match Session.stateAfterRequest c.state method with
      | none => (.ok id, { c with calls }, wrote)
      | some state =>
        (.ok id, { c with calls, session := { c.session with state } },
          wrote ++ [.published (.stateChanged state)])

/-- Sends a notification. The exit notification ends the session. -/
def sendNotification (c : Connection η) (method : String) (params : Option Json) :
    Except Failure Unit × Turn η :=
  match Method.check method, c.session.checkNotification method with
  | .error failure, _ => (.error failure, c, [])
  | .ok _, .error failure => (.error failure, c, [])
  | .ok _, .ok _ =>
    match c.write (.notification ⟨method, params⟩) with
    | .error failure => (.error failure, c, [])
    | .ok wrote =>
      if method == Method.exit then
        let reason : ExitReason :=
          if c.acknowledged then .graceful else .forced "exit sent without a shutdown response"
        (.ok (), Turn.andThen (c, wrote) fun c => c.terminate reason (.transportClosed "session exited"))
      else (.ok (), c, wrote)

def cancel (c : Connection η) (now : Time) (id : Id) : Bool × Turn η :=
  match (CallTable.number? id).bind fun n => (c.calls.cancel now n).map fun r => (n, r.2) with
  | none => (false, c, [])
  | some (n, calls) =>
    let c := { c with calls }
    (true, c, .resolved n (.error (.cancelled id)) :: c.cancelNotice n)

def openDocument (c : Connection η) (uri language text : String) : Except Failure Bool × Turn η :=
  let gate : Except Failure Unit :=
    if c.documents.count uri == 0 then c.session.checkNotification Method.didOpen else .ok ()
  match gate with
  | .error failure => (.error failure, c, [])
  | .ok _ =>
    match c.documents.register uri language text with
    | (none, documents) => (.ok false, { c with documents }, [])
    | (some d, documents) =>
      match c.write (notice Method.didOpen (Payload.didOpen uri d.language d.version d.text)) with
      | .error failure => (.error failure, { c with documents := documents.remove uri }, [])
      | .ok wrote => (.ok true, { c with documents }, wrote)

/-- Changes a document. The change stands even if the server cannot be told of it. -/
def changeDocument (c : Connection η) (uri text : String) (base : Option Int32) :
    Except Failure Int × Turn η :=
  if (c.documents.get? uri).isNone then (.error (.document (.notFound uri)), c, [])
  else
    match c.session.checkNotification Method.didChange with
    | .error failure => (.error failure, c, [])
    | .ok _ =>
      match c.documents.change uri text base with
      | .error fault => (.error (.document fault), c, [])
      | .ok (version, documents) =>
        let c := { c with documents }
        match c.write (notice Method.didChange (Payload.didChange uri version text)) with
        | .error failure => (.error failure, c, [])
        | .ok wrote => (.ok version, c, wrote)

/-- Closes a document. It is closed even if the server cannot be told of it. -/
def closeDocument (c : Connection η) (uri : String) : Except Failure Bool × Turn η :=
  let gate : Except Failure Unit :=
    if c.documents.count uri == 1 then c.session.checkNotification Method.didClose else .ok ()
  match c.documents.close uri, gate with
  | .error fault, _ => (.error (.document fault), c, [])
  | .ok _, .error failure => (.error failure, c, [])
  | .ok (false, documents), .ok _ => (.ok false, { c with documents }, [])
  | .ok (true, documents), .ok _ =>
    let c := { c with documents }
    match c.write (notice Method.didClose (Payload.didClose uri)) with
    | .error failure => (.error failure, c, [])
    | .ok wrote => (.ok true, c, wrote)

/-- The entries with one under `key` put in the place of any other. -/
def setHandler (key : String) (handler : η) (entries : List (String × η)) : List (String × η) :=
  (key, handler) :: entries.filter fun e => e.1 != key

/-- A handler of server requests takes the place of an earlier one for its method. -/
def register (c : Connection η) (method : String) (handler : η) : Connection η :=
  if Method.isValid method then
    { c with requestHandlers := setHandler method handler c.requestHandlers }
  else c

/-- Handlers of notifications accumulate. -/
def subscribe (c : Connection η) (method : String) (handler : η) : Connection η :=
  if Method.isValid method then { c with noticeHandlers := c.noticeHandlers ++ [(method, handler)] }
  else c

/-- Carries out a command: its answer, and the turn. -/
def handle (c : Connection η) (now : Time) : (command : Command η) → command.Answer × Turn η
  | .request method params timeout => c.sendRequest now method params timeout
  | .notify method params => c.sendNotification method params
  | .onRequest method handler => ((), c.register method handler, [])
  | .onNotification method handler => ((), c.subscribe method handler, [])
  | .cancel id => c.cancel now id
  | .setStrict strict => ((), { c with strict }, [])
  | .outstanding => (c.calls.outstanding, c, [])
  | .openDocument uri language text => c.openDocument uri language text
  | .changeDocument uri text base => c.changeDocument uri text base
  | .closeDocument uri => c.closeDocument uri
  | .document uri => (c.documents.get? uri, c, [])
  | .close => ((), c.terminate .graceful (.transportClosed "connection closed by client"))

end Connection
end ServerProbe
