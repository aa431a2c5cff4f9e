import ServerProbe.Connection.Step
import ServerProbe.Proofs.Call.Table
/-!
Turns of a connection taken apart into deeds.

A step is a sequence of acts: the bytes of an input are taken in, and then each item decoded from
them arrives; any other input is an act of its own. `Deed` says, once, all that a connection can do
in one act, with the conditions under which it does it. What holds of every deed holds of every run.
-/

namespace ServerProbe

open Rpc (Id Message Notification Outcome Request Response)

/-- Commands that deal with documents. -/
def Command.IsFiling {η : Type} : Command η → Prop
  | .openDocument _ _ _ | .changeDocument _ _ _ | .closeDocument _ => True
  | _ => False

/-- Every document that is kept is open. -/
def DocumentStore.Counted (s : DocumentStore) : Prop := ∀ e ∈ s.entries, 0 < e.2.count

theorem DocumentStore.mem_of_findIn {uri : String} {d : OpenDocument} :
    ∀ {entries : List (String × OpenDocument)}, findIn uri entries = some d → (uri, d) ∈ entries
  | [], h => by cases h
  | (k, e) :: rest, h => by
      unfold findIn at h
      split at h
      · rename_i same
        rw [← eq_of_beq same, Option.some.inj h]
        exact List.mem_cons_self
      · exact List.mem_cons_of_mem _ (mem_of_findIn h)

namespace Connection

variable {η : Type}

inductive Act (η : Type) where
  | feed (bytes : Bytes)
  | item (item : Framing.Decoded)
  | input (i : Input η)

def acts (c : Connection η) : Input η → List (Act η)
  | .received bytes => .feed bytes :: (c.decoder.feed bytes).1.map .item
  | i => [.input i]

/-! ### The end of a session -/

/-- The connection once its session has ended. -/
def ended (c : Connection η) (reason : ExitReason) : Connection η :=
  { c with
    session := { c.session with state := .exited, reason := some reason }
    calls := c.calls.clear, queue := [], link := .closed }

def closing (c : Connection η) : List (Output η) := if c.link == .closed then [] else [.closed]

def farewell (c : Connection η) (reason : ExitReason) (failure : Failure) : List (Output η) :=
  c.calls.outstanding.map (fun id => .resolved id (.error failure))
    ++ [.published (.stateChanged .exited), .published (.exited reason)] ++ c.closing

theorem terminate_open {c : Connection η} (h : c.state ≠ .exited) (reason : ExitReason)
    (failure : Failure) : c.terminate reason failure = (c.ended reason, c.farewell reason failure) := by
  have hs : c.session.state.isExited = false := by
    simpa only [state, Session.State.isExited, beq_eq_false_iff_ne] using h
  simp only [terminate, Session.exit, hs, Bool.false_eq_true, if_false]
  rfl

theorem terminate_exited {c : Connection η} (h : c.state = .exited) (reason : ExitReason)
    (failure : Failure) : c.terminate reason failure = ({ c with link := .closed }, c.closing) := by
  have hs : c.session.state.isExited = true := by
    simpa only [state, Session.State.isExited, beq_iff_eq] using h
  simp only [terminate, Session.exit, hs, if_true]
  rfl

theorem failHandshake_open {c : Connection η} (h : c.state ≠ .exited) (id : Nat) (failure : Failure) :
    c.failHandshake id failure =
      (c.ended (.initializeFailed failure.message),
        .resolved id (.error failure) :: c.farewell (.initializeFailed failure.message)
          (.transportClosed "initialize failed")) := by
  simp only [failHandshake, Turn.andThen, terminate_open h]
  rfl

/-- Why a session ends without a word to the server, and how its outstanding calls fail then. -/
inductive Ending : Input η → ExitReason → Failure → Prop
  | close : Ending (.command .close) .graceful (.transportClosed "connection closed by client")
  | abandoned : Ending .abandoned .graceful (.transportClosed "client dropped")
  | readEnded : Ending (.readEnded none) (.transportLost "server closed the connection")
      (.transportClosed "server closed the connection")
  | readEndedBy (status : ExitStatus) :
      Ending (.readEnded (some status)) (.processExited status) (.processExited status)
  | readFailed (reason : String) :
      Ending (.readFailed reason) (.transportLost reason) (.transportClosed reason)
  | serverExited (status : ExitStatus) :
      Ending (.serverExited status) (.processExited status) (.processExited status)
  | transportEnded : Ending .transportEnded (.transportLost "transport ended")
      (.transportClosed "transport ended")

def exitReason (c : Connection η) : ExitReason :=
  if c.acknowledged then .graceful else .forced "exit sent without a shutdown response"

/-! ### Deeds -/

/-- Connections that differ in nothing but their decoder, their handlers and whether unhandled
notifications are reported; the link may have been lost. -/
structure Alike (c d : Connection η) : Prop where
  session : d.session = c.session
  calls : d.calls = c.calls
  documents : d.documents = c.documents
  config : d.config = c.config
  acknowledged : d.acknowledged = c.acknowledged
  queue : d.queue = c.queue
  link : d.link = c.link ∨ c.link = .up ∧ d.link = .lost

theorem Alike.refl (c : Connection η) : c.Alike c := ⟨rfl, rfl, rfl, rfl, rfl, rfl, .inl rfl⟩

def registered (c : Connection η) (now : Time) (method : String) (timeout : Option Span) : CallTable :=
  (c.calls.insert now method (timeout <|> c.defaultTimeout method)).2

def sessionAfter (c : Connection η) (method : String) : Session :=
  { c.session with state := (Session.stateAfterRequest c.state method).getD c.state }

def announced : Option Session.State → List (Output η)
  | none => []
  | some state => [.published (.stateChanged state)]

/-- Whether a matched call is the handshake that the session waits for. -/
def isHandshake (c : Connection η) (call : Call) : Bool :=
  call.method == Method.initializeRequest && c.state == .initializing

/-- How a handshake fails that was answered. -/
def HandshakeFailure : Outcome → Failure → Prop
  | .error e, failure => failure = .initializeFailed (.refused e)
  | .ok result, failure => ∃ fault, Capabilities.ofResult result = .error fault ∧
      failure = .initializeFailed (.refused (.of Rpc.ErrorObject.invalidRequestCode fault.message))

/-- What a deed on documents writes: nothing, or a notification that the session allows. A document
that is not open any more could be closed unasked, were it still kept. -/
inductive Filed (c : Connection η) : List (Output η) → Prop
  | silent : Filed c []
  | told (method : String) (params : Json) (up : c.link = .up)
      (allowed : c.documents.Counted → Session.notificationAllowed c.state method = true)
      (file : method ∈ [Method.didOpen, Method.didChange, Method.didClose]) :
      Filed c [.wrote (notice method params)]

def lateness (id : Nat) (call : Call) : Failure :=
  .timeout call.method (.number id) (call.timeout.getD .zero)

/-- Calls that have timed out, one after the other. The handshake ends the session. -/
inductive Lapse : Connection η → List (Nat × Call) → Connection η → List (Output η) → Prop
  | nil {c : Connection η} : Lapse c [] c []
  | plain {c d : Connection η} {id : Nat} {call : Call} {rest : List (Nat × Call)}
      {out : List (Output η)} (other : c.isHandshake call = false) (later : Lapse c rest d out) :
      Lapse c ((id, call) :: rest) d
        (c.cancelNotice id ++ .resolved id (.error (lateness id call)) :: out)
  | handshake {c d : Connection η} {id : Nat} {call : Call} {rest : List (Nat × Call)}
      {out : List (Output η)} {failure : Failure} (own : c.isHandshake call = true)
      (wrapped : failure = .initializeFailed (lateness id call))
      (later : Lapse (c.ended (.initializeFailed failure.message)) rest d out) :
      Lapse c ((id, call) :: rest) d
        (c.cancelNotice id ++ .resolved id (.error failure)
          :: c.farewell (.initializeFailed failure.message) (.transportClosed "initialize failed")
          ++ out)

/-- One deed of a connection: what it is in answer to, the connection after it, and its outputs. -/
inductive Deed (now : Time) (c : Connection η) : Act η → Connection η → List (Output η) → Prop
  | idle {act : Act η} {d : Connection η} (alike : c.Alike d) (unheard : ∀ item, act ≠ .item item) :
      Deed now c act d []
  | unwritten {method : String} {params : Option Json} {timeout : Option Span}
      (allowed : Session.requestAllowed c.state method = true) (down : c.link ≠ .up) :
      Deed now c (.input (.command (.request method params timeout)))
        { c with calls := (c.registered now method timeout).forget c.calls.next } []
  | issued {method : String} {params : Option Json} {timeout : Option Span}
      (valid : Method.isValid method = true)
      (allowed : Session.requestAllowed c.state method = true) (up : c.link = .up) :
      Deed now c (.input (.command (.request method params timeout)))
        { c with calls := c.registered now method timeout, session := c.sessionAfter method }
        (.wrote (.request ⟨.number c.calls.next, method, params⟩)
          :: announced (Session.stateAfterRequest c.state method))
  | noted {method : String} {params : Option Json} (valid : Method.isValid method = true)
      (allowed : Session.notificationAllowed c.state method = true) (up : c.link = .up)
      (stays : method ≠ Method.exit) :
      Deed now c (.input (.command (.notify method params))) c
        [.wrote (.notification ⟨method, params⟩)]
  | left {params : Option Json} (running : c.state ≠ .exited) (up : c.link = .up) :
      Deed now c (.input (.command (.notify Method.exit params))) (c.ended c.exitReason)
        (.wrote (.notification ⟨Method.exit, params⟩)
          :: c.farewell c.exitReason (.transportClosed "session exited"))
  | gaveUp {n : Nat} {call : Call} {calls : CallTable}
      (taken : c.calls.cancel now n = some (call, calls)) :
      Deed now c (.input (.command (.cancel (.number n)))) { c with calls }
        (.resolved n (.error (.cancelled (.number n))) :: c.cancelNotice n)
  | filed {command : Command η} {documents : DocumentStore} {out : List (Output η)}
      (filing : command.IsFiling) (turn : (c.handle now command).2 = ({ c with documents }, out))
      (told : c.Filed out) : Deed now c (.input (.command command)) { c with documents } out
  | answered {r : Response} {id : Nat} {call : Call} {calls : CallTable}
      (taken : c.calls.takeForResponse now r.id = (.outstanding id call, calls))
      (plain : c.isHandshake call = false) :
      Deed now c (.item (.ok (.response r)))
        { c with calls
                 acknowledged := c.acknowledged || (call.method == Method.shutdown && r.outcome.isOk) }
        [.resolved id (answerOf r.outcome)]
  | shaken {id : Id} {n : Nat} {result : Json} {call : Call} {calls : CallTable}
      {capabilities : Capabilities}
      (taken : c.calls.takeForResponse now id = (.outstanding n call, calls))
      (handshake : c.isHandshake call = true)
      (usable : Capabilities.ofResult result = .ok capabilities) :
      Deed now c (.item (.ok (.response ⟨id, .ok result⟩)))
        { c with calls
                 session := { c.session with
                              state := .initialized, capabilities := some capabilities } }
        (.published (.stateChanged .initialized)
          :: c.tryWrite (notice Method.initializedNotice (.obj [])) ++ [.resolved n (.ok result)])
  | refused {r : Response} {id : Nat} {call : Call} {calls : CallTable} {failure : Failure}
      (taken : c.calls.takeForResponse now r.id = (.outstanding id call, calls))
      (handshake : c.isHandshake call = true) (fails : HandshakeFailure r.outcome failure) :
      Deed now c (.item (.ok (.response r)))
        ({ c with calls }.ended (.initializeFailed failure.message))
        (.resolved id (.error failure)
          :: { c with calls }.farewell (.initializeFailed failure.message)
            (.transportClosed "initialize failed"))
  | stray {r : Response} {calls : CallTable} {anomaly : Anomaly}
      {found : Lookup} (missed : c.calls.takeForResponse now r.id = (found, calls))
      (unmatched : ∀ id call, found ≠ .outstanding id call) :
      Deed now c (.item (.ok (.response r))) { c with calls } [.published (.anomaly anomaly)]
  | malformed {fault : Framing.DecodeFault} :
      Deed now c (.item (.error fault)) c [.published (.anomaly (.ofFault fault))]
  | heard {n : Notification} :
      Deed now c (.item (.ok (.notification n))) c (c.receiveNotification n).2
  | called {r : Request} {handler : η}
      (handled : (c.requestHandlers.find? fun h => h.1 == r.method).map Prod.snd = some handler) :
      Deed now c (.item (.ok (.request r)))
        { c with queue := c.queue ++ [⟨r.id, r.method, r.params, handler⟩] }
        [.called handler r.params]
  | declined {r : Request}
      (unhandled : (c.requestHandlers.find? fun h => h.1 == r.method).map Prod.snd = none) :
      Deed now c (.item (.ok (.request r))) c
        (c.reply ⟨r.id, .error (.methodNotFound r.method)⟩).2
  | finished {p : Pending η} {queue : List (Pending η)} {how : HandlerEnd}
      (first : c.queue = p :: queue) :
      Deed now c (.input (.finished how)) { c with queue }
        (c.reply ⟨p.id, outcomeOf p.method how⟩).2
  | lapsed {expired : List (Nat × Call)} {calls : CallTable} {d : Connection η}
      {out : List (Output η)} (taken : c.calls.expire now = (expired, calls))
      (lapse : Lapse { c with calls } expired d out) : Deed now c (.input .deadline) d out
  | ceased {input : Input η} {reason : ExitReason} {failure : Failure} (running : c.state ≠ .exited)
      (ending : Ending input reason failure) :
      Deed now c (.input input) (c.ended reason) (c.farewell reason failure)
  | shut {input : Input η} (gone : c.state = .exited) :
      Deed now c (.input input) { c with link := .closed } c.closing

theorem not_exited_of_isHandshake {c : Connection η} {call : Call} (h : c.isHandshake call = true) :
    c.state ≠ .exited := by
  have waiting := eq_of_beq (Bool.and_eq_true_iff.mp h).2
  rw [waiting]
  exact fun gone => by cases gone

/-- A session that has ended stays as it is. -/
theorem Lapse.exited_stays {c d : Connection η} {expired : List (Nat × Call)} {out : List (Output η)}
    (h : Lapse c expired d out) (gone : c.state = .exited) : d.session = c.session := by
  induction h with
  | nil => rfl
  | plain other later ih => exact ih gone
  | handshake own wrapped later ih => exact absurd gone (not_exited_of_isHandshake own)

theorem Deed.exited_stays {now : Time} {c d : Connection η} {act : Act η} {out : List (Output η)}
    (h : Deed now c act d out) (gone : c.state = .exited) : d.session = c.session := by
  cases h with
  | idle alike unheard => exact alike.session
  | issued valid allowed up =>
      rw [gone] at allowed
      cases allowed
  | left running up => exact absurd gone running
  | shaken taken handshake usable => exact absurd gone (not_exited_of_isHandshake handshake)
  | refused taken handshake fails => exact absurd gone (not_exited_of_isHandshake handshake)
  | lapsed taken lapse => exact lapse.exited_stays gone
  | ceased running ending => exact absurd gone running
  | _ => rfl

/-! ### Every act is a deed -/

/-- The turn that an act leads to. -/
def DeedOf (now : Time) (c : Connection η) (act : Act η) (t : Turn η) : Prop :=
  Deed now c act t.1 t.2

theorem DeedOf.alike {now : Time} {c d : Connection η} {input : Input η} (h : c.Alike d) :
    DeedOf now c (.input input) (d, []) := Deed.idle h fun _ same => by cases same

theorem DeedOf.unchanged (now : Time) (c : Connection η) (input : Input η) :
    DeedOf now c (.input input) (c, []) := .alike (Alike.refl c)

theorem check_eq_ok {method : String} {u : Unit} (h : Method.check method = .ok u) :
    Method.isValid method = true := by
  unfold Method.check at h
  split at h
  · assumption
  · cases h

theorem checkRequest_eq_ok {s : Session} {method : String} {u : Unit}
    (h : s.checkRequest method = .ok u) : Session.requestAllowed s.state method = true := by
  unfold Session.checkRequest at h
  split at h
  · assumption
  · cases h

theorem checkNotification_eq_ok {s : Session} {method : String} {u : Unit}
    (h : s.checkNotification method = .ok u) : Session.notificationAllowed s.state method = true := by
  unfold Session.checkNotification at h
  split at h
  · assumption
  · cases h

theorem write_eq_ok {c : Connection η} {m : Message} {out : List (Output η)} (h : c.write m = .ok out) :
    c.link = .up ∧ out = [.wrote m] := by
  unfold write at h
  split at h
  · exact ⟨‹_›, (Except.ok.inj h).symm⟩
  · cases h
  · cases h

theorem write_eq_error {c : Connection η} {m : Message} {failure : Failure}
    (h : c.write m = .error failure) : c.link ≠ .up := by
  intro up
  simp only [write, up] at h
  cases h

theorem not_exited_of_notificationAllowed {c : Connection η} {method : String}
    (h : Session.notificationAllowed c.state method = true) : c.state ≠ .exited := by
  intro gone
  rw [gone] at h
  cases h

theorem sendRequest_deed (c : Connection η) (now : Time) (method : String) (params : Option Json)
    (timeout : Option Span) :
    DeedOf now c (.input (.command (.request method params timeout)))
      (c.sendRequest now method params timeout).2 := by
  unfold sendRequest
  split
  · exact .unchanged now c _
  · exact .unchanged now c _
  · rename_i valid allowed
    have allowed' := checkRequest_eq_ok allowed
    split
    rename_i id calls inserted
    have hid : id = c.calls.next := (congrArg Prod.fst inserted).symm
    have hcalls : calls = c.registered now method timeout := (congrArg Prod.snd inserted).symm
    subst hid hcalls
    split
    · rename_i failed
      exact Deed.unwritten allowed' (write_eq_error failed)
    · rename_i out written
      obtain ⟨up, rfl⟩ := write_eq_ok written
      have deed : Deed now c (.input (.command (.request method params timeout))) _ _ :=
        .issued (check_eq_ok valid) allowed' up
      split
      · rename_i stays
        simp only [sessionAfter, stays, announced, Option.getD_none] at deed
        exact deed
      · rename_i state moves
        simp only [sessionAfter, moves, announced, Option.getD_some] at deed
        exact deed

theorem sendNotification_deed (c : Connection η) (now : Time) (method : String)
    (params : Option Json) :
    DeedOf now c (.input (.command (.notify method params)))
      (c.sendNotification method params).2 := by
  unfold sendNotification
  split
  · exact .unchanged now c _
  · exact .unchanged now c _
  · rename_i valid allowed
    have allowed' := checkNotification_eq_ok allowed
    split
    · exact .unchanged now c _
    · rename_i out written
      obtain ⟨up, rfl⟩ := write_eq_ok written
      split
      · rename_i exits
        obtain rfl := eq_of_beq exits
        have running := not_exited_of_notificationAllowed allowed'
        simp only [Turn.andThen, terminate_open running]
        exact Deed.left running up
      · rename_i stays
        exact Deed.noted (check_eq_ok valid) allowed' up (by simpa using stays)

theorem cancel_deed (c : Connection η) (now : Time) (id : Id) :
    DeedOf now c (.input (.command (.cancel id))) (c.cancel now id).2 := by
  unfold cancel
  split
  · exact .unchanged now c _
  · rename_i n calls found
    obtain ⟨m, number, some_taken⟩ := Option.bind_eq_some_iff.mp found
    obtain ⟨⟨call, calls'⟩, taken, same⟩ := Option.map_eq_some_iff.mp some_taken
    obtain ⟨rfl, rfl⟩ := Prod.mk.inj same
    obtain rfl := CallTable.number?_eq_some number
    exact Deed.gaveUp taken

theorem write_filed {c : Connection η} {method : String} {params : Json} {out : List (Output η)}
    (written : c.write (notice method params) = .ok out)
    (allowed : c.documents.Counted → Session.notificationAllowed c.state method = true)
    (file : method ∈ [Method.didOpen, Method.didChange, Method.didClose]) : c.Filed out := by
  obtain ⟨up, rfl⟩ := write_eq_ok written
  exact .told method params up allowed file

/-- A command on documents leaves all but the documents as it is. -/
def FiledBy (c : Connection η) (t : Turn η) : Prop :=
  ∃ documents out, t = ({ c with documents }, out) ∧ c.Filed out

theorem FiledBy.unchanged (c : Connection η) : FiledBy c (c, []) := ⟨c.documents, [], rfl, .silent⟩

theorem openDocument_filed (c : Connection η) (uri language text : String) :
    FiledBy c (c.openDocument uri language text).2 := by
  unfold openDocument
  dsimp only
  split
  · exact .unchanged c
  · rename_i open_allowed
    split
    · exact ⟨_, _, rfl, .silent⟩
    · rename_i d documents first
      split
      · exact ⟨_, _, rfl, .silent⟩
      · rename_i out written
        refine ⟨documents, out, rfl, write_filed written (fun _ => ?_) (by simp)⟩
        have absent : c.documents.find? uri = none := by
          unfold DocumentStore.register at first
          split at first
          · cases first
          · assumption
        have closed : (c.documents.count uri == 0) = true := by
          simp only [DocumentStore.count, absent, beq_self_eq_true]
        rw [if_pos closed] at open_allowed
        exact checkNotification_eq_ok open_allowed

theorem changeDocument_filed (c : Connection η) (uri text : String) (base : Option Int32) :
    FiledBy c (c.changeDocument uri text base).2 := by
  unfold changeDocument
  split
  · exact .unchanged c
  · split
    · exact .unchanged c
    · rename_i allowed
      split
      · exact .unchanged c
      · dsimp only
        split
        · exact ⟨_, _, rfl, .silent⟩
        · rename_i out written
          exact ⟨_, out, rfl,
            write_filed written (fun _ => checkNotification_eq_ok allowed) (by simp)⟩

theorem closeDocument_filed (c : Connection η) (uri : String) :
    FiledBy c (c.closeDocument uri).2 := by
  unfold closeDocument
  dsimp only
  split
  · exact .unchanged c
  · exact .unchanged c
  · exact ⟨_, _, rfl, .silent⟩
  · rename_i last allowed
    split
    · exact ⟨_, _, rfl, .silent⟩
    · rename_i out written
      refine ⟨_, out, rfl, write_filed written (fun counted => ?_) (by simp)⟩
      have one : (c.documents.count uri == 1) = true := by
        unfold DocumentStore.close at last
        split at last
        · cases last
        · rename_i d found
          have positive : 0 < d.count := counted _ (DocumentStore.mem_of_findIn found)
          split at last
          · simp only [DocumentStore.count, found, beq_iff_eq]
            omega
          · cases last
      rw [if_pos one] at allowed
      exact checkNotification_eq_ok allowed

theorem filing_deed {c : Connection η} {now : Time} {command : Command η}
    (filing : command.IsFiling) (filed : FiledBy c (c.handle now command).2) :
    DeedOf now c (.input (.command command)) (c.handle now command).2 := by
  obtain ⟨documents, out, turn, told⟩ := filed
  rw [turn]
  exact Deed.filed filing turn told

theorem terminate_deed {c : Connection η} {now : Time} {input : Input η} {reason : ExitReason}
    {failure : Failure} (ending : Ending input reason failure) :
    DeedOf now c (.input input) (c.terminate reason failure) := by
  by_cases gone : c.state = .exited
  · rw [terminate_exited gone]
    exact Deed.shut gone
  · rw [terminate_open gone]
    exact Deed.ceased gone ending

theorem lose_deed {c : Connection η} {now : Time} {input : Input η} {reason : String}
    (ending : Ending input (.transportLost reason) (.transportClosed reason)) :
    DeedOf now c (.input input) (c.lose reason) := by
  unfold lose
  split
  · exact .unchanged now c _
  · exact terminate_deed ending

theorem serverExit_deed {c : Connection η} {now : Time} {input : Input η} {status : ExitStatus}
    (ending : Ending input (.processExited status) (.processExited status)) :
    DeedOf now c (.input input) (c.serverExit status) := by
  unfold serverExit
  split
  · exact .unchanged now c _
  · exact terminate_deed ending

theorem handle_deed (c : Connection η) (now : Time) (command : Command η) :
    DeedOf now c (.input (.command command)) (c.handle now command).2 := by
  cases command with
  | request method params timeout => exact sendRequest_deed c now method params timeout
  | notify method params => exact sendNotification_deed c now method params
  | onRequest method handler =>
      refine .alike ?_
      simp only [register]
      split
      · exact ⟨rfl, rfl, rfl, rfl, rfl, rfl, .inl rfl⟩
      · exact .refl c
  | onNotification method handler =>
      refine .alike ?_
      simp only [subscribe]
      split
      · exact ⟨rfl, rfl, rfl, rfl, rfl, rfl, .inl rfl⟩
      · exact .refl c
  | cancel id => exact cancel_deed c now id
  | setStrict strict => exact .alike ⟨rfl, rfl, rfl, rfl, rfl, rfl, .inl rfl⟩
  | outstanding => exact .unchanged now c _
  | openDocument uri language text => exact filing_deed trivial (openDocument_filed c uri language text)
  | changeDocument uri text base => exact filing_deed trivial (changeDocument_filed c uri text base)
  | closeDocument uri => exact filing_deed trivial (closeDocument_filed c uri)
  | document uri => exact .unchanged now c _
  | close => exact terminate_deed .close

theorem resolve_deed {c : Connection η} {now : Time} {r : Response} {id : Nat} {call : Call}
    {calls : CallTable} (taken : c.calls.takeForResponse now r.id = (.outstanding id call, calls)) :
    DeedOf now c (.item (.ok (.response r))) ({ c with calls }.resolve id call r.outcome) := by
  unfold resolve
  dsimp only
  split
  · rename_i handshake
    -- The handshake is no `shutdown`, so its answer acknowledges nothing.
    have kept : (c.acknowledged || (call.method == Method.shutdown && r.outcome.isOk))
        = c.acknowledged := by
      have named := eq_of_beq (Bool.and_eq_true_iff.mp handshake).1
      simp only [named, Method.initializeRequest, Method.shutdown, String.reduceBEq,
        Bool.false_and, Bool.or_false]
    have running : ({ c with calls } : Connection η).state ≠ .exited :=
      not_exited_of_isHandshake (c := c) handshake
    rw [kept]
    obtain ⟨rid, outcome⟩ := r
    cases outcome with
    | error e =>
        dsimp only
        rw [failHandshake_open running]
        exact Deed.refused taken handshake rfl
    | ok result =>
        simp only [completeHandshake, Session.completeHandshake]
        cases usable : Capabilities.ofResult result with
        | error fault =>
            simp only [Except.map]
            rw [failHandshake_open running]
            exact Deed.refused taken handshake ⟨fault, usable, rfl⟩
        | ok capabilities => exact Deed.shaken taken handshake usable
  · rename_i plain
    exact Deed.answered taken (Bool.eq_false_iff.mpr plain)

theorem receiveResponse_deed (c : Connection η) (now : Time) (r : Response) :
    DeedOf now c (.item (.ok (.response r))) (c.receiveResponse now r) := by
  unfold receiveResponse
  split
  rename_i found calls taken
  dsimp only
  split
  · exact resolve_deed taken
  all_goals exact Deed.stray taken (by intro id call same; cases same)

/-- A reply changes nothing, and what is written depends on the session and the link. -/
theorem reply_eq {c d : Connection η} (session : d.session = c.session) (link : d.link = c.link)
    (r : Response) : d.reply r = (d, (c.reply r).2) := by
  unfold reply tryWrite write state
  rw [session, link]
  split <;> rfl

theorem receiveRequest_deed (c : Connection η) (now : Time) (r : Request) :
    DeedOf now c (.item (.ok (.request r))) (c.receiveRequest r) := by
  unfold receiveRequest
  split
  · exact Deed.called ‹_›
  · rw [reply_eq rfl rfl]
    exact Deed.declined ‹_›

theorem finish_deed (c : Connection η) (now : Time) (how : HandlerEnd) :
    DeedOf now c (.input (.finished how)) (c.finish how) := by
  unfold finish
  split
  · exact .unchanged now c _
  · rename_i p queue first
    rw [reply_eq (c := c) (d := { c with queue }) rfl rfl]
    exact Deed.finished first

theorem receive_deed (c : Connection η) (now : Time) (item : Framing.Decoded) :
    DeedOf now c (.item item) (receive now item c) := by
  unfold receive
  split
  · exact receiveResponse_deed c now _
  · exact Deed.heard
  · exact receiveRequest_deed c now _
  · exact Deed.malformed

theorem timeOut_plain {c : Connection η} {call : Call} (other : c.isHandshake call = false)
    (id : Nat) : timeOut (id, call) c =
      (c, c.cancelNotice id ++ [.resolved id (.error (lateness id call))]) := by
  unfold isHandshake at other
  simp only [timeOut, Turn.andThen, other, Bool.false_eq_true, if_false, lateness]

theorem timeOut_handshake {c : Connection η} {call : Call} (own : c.isHandshake call = true)
    (id : Nat) : timeOut (id, call) c =
      (c.ended (.initializeFailed (Failure.initializeFailed (lateness id call)).message),
        c.cancelNotice id ++ .resolved id (.error (.initializeFailed (lateness id call)))
          :: c.farewell (.initializeFailed (Failure.initializeFailed (lateness id call)).message)
            (.transportClosed "initialize failed")) := by
  have running := not_exited_of_isHandshake own
  unfold isHandshake at own
  simp only [timeOut, Turn.andThen, own, if_true, failHandshake_open running, lateness]

theorem timeOuts_lapse (expired : List (Nat × Call)) (c : Connection η) :
    Lapse c expired (Turn.each timeOut expired c).1 (Turn.each timeOut expired c).2 := by
  induction expired generalizing c with
  | nil => exact .nil
  | cons e expired ih =>
      obtain ⟨id, call⟩ := e
      by_cases own : c.isHandshake call = true
      · have lapse : Lapse c ((id, call) :: expired) _ _ := .handshake own rfl (ih _)
        simp only [Turn.each, Turn.andThen, timeOut_handshake own, List.append_assoc,
          List.cons_append] at lapse ⊢
        exact lapse
      · have other := Bool.eq_false_iff.mpr own
        have lapse : Lapse c ((id, call) :: expired) _ _ := .plain other (ih c)
        simp only [Turn.each, Turn.andThen, timeOut_plain other, List.append_assoc,
          List.cons_append, List.nil_append] at lapse ⊢
        exact lapse

theorem acts_single (c : Connection η) {input : Input η} (single : ∀ bytes, input ≠ .received bytes) :
    c.acts input = [.input input] := by
  cases input with
  | received bytes => exact absurd rfl (single bytes)
  | _ => rfl

/-- An input other than bytes is one deed. -/
theorem step_deed {c : Connection η} {now : Time} {input : Input η}
    (single : ∀ bytes, input ≠ .received bytes) : DeedOf now c (.input input) (c.step now input) := by
  cases input with
  | command command => exact handle_deed c now command
  | received bytes => exact absurd rfl (single bytes)
  | readEnded status =>
      cases status with
      | none => exact lose_deed .readEnded
      | some status => exact serverExit_deed (.readEndedBy status)
  | readFailed reason => exact lose_deed (.readFailed reason)
  | serverExited status => exact serverExit_deed (.serverExited status)
  | transportEnded => exact lose_deed .transportEnded
  | finished how => exact finish_deed c now how
  | deadline => exact Deed.lapsed rfl (timeOuts_lapse _ _)
  | writerLost =>
      refine .alike ?_
      split
      · rename_i up
        exact ⟨rfl, rfl, rfl, rfl, rfl, rfl, .inr ⟨eq_of_beq up, rfl⟩⟩
      · exact .refl c
  | abandoned => exact terminate_deed .abandoned

/-! ### Steps and runs -/

/-- A sequence of deeds, one for each act. -/
inductive Deeds (now : Time) : List (Act η) → Connection η → Connection η → List (Output η) → Prop
  | nil {c : Connection η} : Deeds now [] c c []
  | cons {act : Act η} {acts : List (Act η)} {c d e : Connection η} {out later : List (Output η)} :
      Deed now c act d out → Deeds now acts d e later → Deeds now (act :: acts) c e (out ++ later)

theorem Deeds.exited_stays {now : Time} {acts : List (Act η)} {c d : Connection η}
    {out : List (Output η)} (h : Deeds now acts c d out) (gone : c.state = .exited) :
    d.session = c.session := by
  induction h with
  | nil => rfl
  | cons first _ ih =>
      have same := first.exited_stays gone
      exact (ih ((congrArg Session.state same).trans gone)).trans same

theorem receiveAll_deeds (c : Connection η) (now : Time) (items : List Framing.Decoded) :
    Deeds now (items.map .item) c (c.receiveAll now items).1 (c.receiveAll now items).2 := by
  induction items generalizing c with
  | nil => exact .nil
  | cons item items ih => exact .cons (receive_deed c now item) (ih (receive now item c).1)

/-- A step is a sequence of deeds. -/
theorem step_deeds (c : Connection η) (now : Time) (input : Input η) :
    Deeds now (c.acts input) c (c.step now input).1 (c.step now input).2 := by
  by_cases bytes : ∃ bytes, input = .received bytes
  · obtain ⟨bytes, rfl⟩ := bytes
    have taken : Deed now c (.feed bytes) { c with decoder := (c.decoder.feed bytes).2 } [] :=
      .idle ⟨rfl, rfl, rfl, rfl, rfl, rfl, .inl rfl⟩ fun _ same => by cases same
    exact .cons taken (receiveAll_deeds _ now (c.decoder.feed bytes).1)
  · have single : ∀ bytes, input ≠ .received bytes := fun b same => bytes ⟨b, same⟩
    rw [c.acts_single single, ← List.append_nil (c.step now input).2]
    exact .cons (step_deed single) .nil

theorem run_nil (c : Connection η) : c.run [] = (c, []) := rfl

theorem run_cons (c : Connection η) (now : Time) (input : Input η)
    (history : List (Time × Input η)) :
    c.run ((now, input) :: history) =
      (((c.step now input).1.run history).1,
        (c.step now input).2 ++ ((c.step now input).1.run history).2) := rfl

theorem run_append (c : Connection η) (before after : List (Time × Input η)) :
    c.run (before ++ after) =
      (((c.run before).1.run after).1, (c.run before).2 ++ ((c.run before).1.run after).2) := by
  induction before generalizing c with
  | nil => rfl
  | cons entry before ih =>
      obtain ⟨now, input⟩ := entry
      simp only [List.cons_append, run_cons, ih, List.append_assoc]

/-- What holds of a connection and all it has put out holds after every run, if every deed keeps it. -/
theorem run_induction {P : Connection η → List (Output η) → Prop} {c : Connection η}
    {past : List (Output η)} (start : P c past)
    (deed : ∀ {now c past act d out}, P c past → Deed now c act d out → P d (past ++ out))
    (history : List (Time × Input η)) : P (c.run history).1 (past ++ (c.run history).2) := by
  have deeds : ∀ {now acts c d out}, Deeds now acts c d out → ∀ past, P c past → P d (past ++ out) := by
    intro now acts c d out sequence
    induction sequence with
    | nil => intro past held; rwa [List.append_nil]
    | cons first _ ih =>
        intro past held
        rw [← List.append_assoc]
        exact ih _ (deed held first)
  induction history generalizing c past with
  | nil => simpa only [run_nil, List.append_nil] using start
  | cons entry history ih =>
      obtain ⟨now, input⟩ := entry
      rw [run_cons, ← List.append_assoc]
      exact ih (deeds (step_deeds c now input) past start)

/-- What holds of a connection alone. -/
theorem run_preserves {P : Connection η → Prop} {c : Connection η} (start : P c)
    (deed : ∀ {now c act d out}, P c → Deed now c act d out → P d) (history : List (Time × Input η)) :
    P (c.run history).1 :=
  @run_induction η (fun d _ => P d) c [] start (fun held kept => deed held kept) history

/-- The connection after a history, from its beginning. -/
def after (config : ClientConfig) (history : List (Time × Input η)) : Connection η :=
  ((fresh config).run history).1

/-- All that a connection puts out in a history. -/
def outputs (config : ClientConfig) (history : List (Time × Input η)) : List (Output η) :=
  ((fresh config).run history).2

end Connection
end ServerProbe
