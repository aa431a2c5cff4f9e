import ServerProbe.Proofs.Connection.Discourse
import ServerProbe.Proofs.Connection.Wait
/-!
Sessions that are shutting down. As long as the client gives no other commands and the link holds, a
connection writes nothing of its own accord but recalls of the calls that time out; every call is
accounted for, and the shutdown call is ended by its response or by its deadline. The exit
notification ends all that is left, and nothing is written after it.
-/

namespace ServerProbe

open Rpc (Id Message Outcome Response)

variable {η : Type}

/-- Inputs that leave a connection open and are no calls of its client: what the server sends, ends of
handlers and what they do with documents, and the passing of time. -/
inductive Input.Calm : Input η → Prop
  | received (bytes : Bytes) : Calm (.received bytes)
  | finished (how : HandlerEnd) : Calm (.finished how)
  | deadline : Calm .deadline
  | document (uri : String) : Calm (.command (.document uri))
  | filing {command : Command η} (filing : command.IsFiling) : Calm (.command command)

namespace Connection

def Act.Calm : Act η → Prop
  | .feed _ | .item _ => True
  | .input i => i.Calm

theorem calm_acts {i : Input η} (calm : i.Calm) (c : Connection η) : ∀ act ∈ c.acts i, act.Calm := by
  intro act held
  cases act with
  | feed bytes => trivial
  | item item => trivial
  | input j => exact mem_acts held ▸ calm

/-! ### What is said unprompted -/

/-- The requests and notifications among the outputs. -/
def unprompted (out : List (Output η)) : List Message := (sent out).filter fun m => !m.isReply

@[simp] theorem unprompted_append (a b : List (Output η)) :
    unprompted (a ++ b) = unprompted a ++ unprompted b := by
  rw [unprompted, sent_append, List.filter_append]
  rfl

theorem unprompted_of_silent {out : List (Output η)} (silent : sent out = []) : unprompted out = [] := by
  rw [unprompted, silent, List.filter_nil]

theorem unprompted_reply (c : Connection η) (r : Response) : unprompted (c.reply r).2 = [] := by
  refine List.filter_eq_nil_iff.mpr fun m held => ?_
  rw [eq_of_mem_reply held]
  exact Bool.false_ne_true

/-- The notification that a call is of no more interest. -/
def recallNotice (id : Nat) : Message := notice Method.cancelRequest (Payload.cancel id)

def lapsed? : Nat × Answered → Option Nat
  | (id, .error (.timeout _ _ _)) => some id
  | _ => none

/-- The calls among the outputs that timed out. -/
def timedOut (out : List (Output η)) : List Nat := (resolutions out).filterMap lapsed?

@[simp] theorem timedOut_append (a b : List (Output η)) :
    timedOut (a ++ b) = timedOut a ++ timedOut b := by
  rw [timedOut, resolutions_append, List.filterMap_append]
  rfl

theorem Quiet.timedOut {out : List (Output η)} (h : Quiet out) : timedOut out = [] := by
  rw [Connection.timedOut, h.resolutions, List.filterMap_nil]

/-! ### Calm acts -/

variable {now : Time} {c d : Connection η} {act : Act η} {out : List (Output η)}

theorem not_handshake (settled : c.state ≠ .initializing) (call : Call) : c.isHandshake call = false :=
  Bool.and_eq_false_iff.mpr (.inr (beq_eq_false_iff_ne.mpr settled))

/-- Calls that lapse after the handshake leave the connection as it is. -/
theorem Lapse.settled {expired : List (Nat × Call)} (lapse : Lapse c expired d out)
    (settled : c.state ≠ .initializing) : d = c ∧
      out = expired.flatMap fun e => c.cancelNotice e.1 ++ [.resolved e.1 (.error (lateness e.1 e.2))] := by
  induction lapse with
  | nil => exact ⟨rfl, rfl⟩
  | plain other later ih =>
      obtain ⟨rfl, rfl⟩ := ih settled
      refine ⟨rfl, ?_⟩
      rw [List.flatMap_cons, List.append_assoc]
      rfl
  | handshake own wrapped later ih =>
      rw [not_handshake settled] at own
      cases own

theorem Deed.item_kept {item : Framing.Decoded} (deed : Deed now c (.item item) d out)
    (settled : c.state ≠ .initializing) : d.session = c.session ∧ d.link = c.link := by
  cases deed with
  | idle alike unheard => exact absurd rfl (unheard item)
  | shaken taken handshake usable =>
      rw [not_handshake settled] at handshake
      cases handshake
  | refused taken handshake fails =>
      rw [not_handshake settled] at handshake
      cases handshake
  | _ => exact ⟨rfl, rfl⟩

theorem finish_kept (c : Connection η) (how : HandlerEnd) :
    (c.finish how).1.session = c.session ∧ (c.finish how).1.link = c.link := by
  unfold finish
  split
  · exact ⟨rfl, rfl⟩
  · rename_i p queue first
    rw [reply_eq (c := c) (d := { c with queue }) rfl rfl]
    exact ⟨rfl, rfl⟩

theorem expire_kept (c : Connection η) (now : Time) (settled : c.state ≠ .initializing) :
    (c.expire now).1.session = c.session ∧ (c.expire now).1.link = c.link := by
  have lapse := timeOuts_lapse (c.calls.expire now).1 { c with calls := (c.calls.expire now).2 }
  obtain ⟨same, -⟩ := lapse.settled settled
  have whole : (c.expire now).1 = { c with calls := (c.calls.expire now).2 } := same
  rw [whole]
  exact ⟨rfl, rfl⟩

theorem filing_kept {command : Command η} (filing : command.IsFiling) (c : Connection η) (now : Time) :
    (c.handle now command).2.1.session = c.session ∧ (c.handle now command).2.1.link = c.link := by
  have filed : FiledBy c (c.handle now command).2 := by
    cases command with
    | openDocument uri language text => exact openDocument_filed c uri language text
    | changeDocument uri text base => exact changeDocument_filed c uri text base
    | closeDocument uri => exact closeDocument_filed c uri
    | _ => exact filing.elim
  obtain ⟨documents, out, turn, -⟩ := filed
  rw [turn]
  exact ⟨rfl, rfl⟩

/-- A calm act leaves the session and the link as they are, once the handshake is over. -/
theorem perform_kept (calm : act.Calm) (settled : c.state ≠ .initializing) (now : Time) :
    (c.perform now act).1.session = c.session ∧ (c.perform now act).1.link = c.link := by
  cases act with
  | feed bytes => exact ⟨rfl, rfl⟩
  | item item => exact Deed.item_kept (receive_deed c now item) settled
  | input i =>
      cases calm with
      | received bytes => exact ⟨rfl, rfl⟩
      | finished how => exact finish_kept c how
      | deadline => exact expire_kept c now settled
      | document uri => exact ⟨rfl, rfl⟩
      | filing filing => exact filing_kept filing c now

/-- What a calm act of a session that is shutting down says unprompted is that calls timed out. -/
theorem Deed.recalls (deed : Deed now c act d out) (calm : act.Calm) (stopping : c.state = .shuttingDown)
    (stays : d.state ≠ .exited) (up : c.link = .up) (counted : c.documents.Counted) :
    unprompted out = (timedOut out).map recallNotice := by
  have settled : c.state ≠ .initializing := by
    rw [stopping]
    decide
  have quietly {out : List (Output η)} (silent : unprompted out = []) (quiet : Quiet out) :
      unprompted out = (timedOut out).map recallNotice := by
    rw [silent, quiet.timedOut, List.map_nil]
  cases deed with
  | idle alike unheard => rfl
  | unwritten allowed down => exact absurd up down
  | issued valid allowed _ =>
      rw [stopping] at allowed
      cases allowed
  | noted valid allowed _ other =>
      cases calm with
      | filing filing => exact filing.elim
  | left running _ =>
      cases calm with
      | filing filing => exact filing.elim
  | gaveUp taken =>
      cases calm with
      | filing filing => exact filing.elim
  | filed filing turn told =>
      cases told with
      | silent => rfl
      | told method params _ allowed file =>
          -- No document may be spoken of any more.
          have allowed := allowed counted
          rw [stopping] at allowed
          have forbidden : ∀ method ∈ [Method.didOpen, Method.didChange, Method.didClose],
              Session.notificationAllowed .shuttingDown method = false := by decide
          rw [forbidden method file] at allowed
          cases allowed
  | @answered r id call calls taken plain =>
      obtain ⟨rid, outcome⟩ := r
      cases outcome with
      | ok value => rfl
      | error e => rfl
  | shaken taken handshake usable =>
      rw [not_handshake settled] at handshake
      cases handshake
  | refused taken handshake fails =>
      rw [not_handshake settled] at handshake
      cases handshake
  | stray missed unmatched => rfl
  | malformed => rfl
  | heard =>
      exact quietly (unprompted_of_silent (sent_receiveNotification c _)) (receiveNotification_quiet c _)
  | called handled => rfl
  | declined unhandled => exact quietly (unprompted_reply c _) (reply_quiet c _)
  | finished first => exact quietly (unprompted_reply c _) (reply_quiet c _)
  | @lapsed expired calls d out taken lapse =>
      obtain ⟨-, rfl⟩ := lapse.settled settled
      have told (id : Nat) : ({ c with calls } : Connection η).cancelNotice id = [.wrote (recallNotice id)] := by
        have stopping : ({ c with calls } : Connection η).state = .shuttingDown := stopping
        rw [cancelNotice_of_up (c := { c with calls }) up, stopping]
        rfl
      clear taken lapse
      induction expired with
      | nil => rfl
      | cons e expired ih =>
          rw [List.flatMap_cons, unprompted_append, timedOut_append, List.map_append, ih, told]
          rfl
  | ceased running ending => exact absurd rfl stays
  | shut gone =>
      rw [stopping] at gone
      cases gone

/-! ### The shutdown call -/

/-- The shutdown call of a client that gives the server some time to answer. -/
def stopCall (asked : Time) (timeout : Span) : Call :=
  ⟨Method.shutdown, some timeout, CallTable.deadlineAfter asked (some timeout)⟩

/-- The acts that end a shutdown call, and the answer it is given. -/
inductive Concludes (id : Nat) (call : Call) (now : Time) : Act η → Answered → Prop
  | responded (outcome : Outcome) :
      Concludes id call now (.item (.ok (.response ⟨.number id, outcome⟩))) (answerOf outcome)
  | timedOut (due : CallTable.Due now call) :
      Concludes id call now (.input .deadline) (.error (lateness id call))

/-- A session that is shutting down, what has been put out since it was asked to, and the calls that
were outstanding then besides the shutdown call. -/
structure Stopping (id : Nat) (call : Call) (others : List Nat) (c : Connection η)
    (out : List (Output η)) : Prop where
  state : c.state = .shuttingDown
  up : c.link = .up
  sound : c.calls.Sound
  fits : Fitting c.state c.calls.calls
  punctual : c.calls.Punctual
  counted : c.documents.Counted
  distinct : (id :: others).Nodup
  named : call.method = Method.shutdown
  said : unprompted out =
    .request ⟨.number id, Method.shutdown, none⟩ :: (timedOut out).map recallNotice
  whole : (resolvedIds out ++ c.calls.ids).Perm (id :: others)
  own : ∀ held, c.calls.call? id = some held → held = call
  sole : ∀ n held, c.calls.call? n = some held → held.method = Method.shutdown → n = id
  acknowledged : c.acknowledged = true ↔ ∃ value, (id, .ok value) ∈ resolutions out

variable {id : Nat} {call : Call} {others : List Nat} {answer : Answered}

theorem Act.Calm.not_request (calm : act.Calm) (method : String) (params : Option Json)
    (timeout : Option Span) : act ≠ .input (.command (.request method params timeout)) := by
  rintro rfl
  cases calm with
  | filing filing => exact filing.elim

namespace Stopping

theorem settled (h : Stopping id call others c out) : c.state ≠ .initializing := by
  rw [h.state]
  decide

theorem stays (h : Stopping id call others c out) (calm : act.Calm) (now : Time) :
    (c.perform now act).1.state = .shuttingDown :=
  (congrArg Session.state (perform_kept calm h.settled now).1).trans h.state

/-- The shutdown call is outstanding until it has its answer. -/
theorem outstanding_or_answered (h : Stopping id call others c out) :
    c.calls.call? id = some call ∨ ∃ answer, (id, answer) ∈ resolutions out := by
  rcases List.mem_append.mp (h.whole.mem_iff.mpr List.mem_cons_self) with resolved | held
  · obtain ⟨⟨n, answer⟩, shown, rfl⟩ := List.mem_map.mp resolved
    exact .inr ⟨answer, shown⟩
  · obtain ⟨held, found⟩ := CallTable.mem_ids_iff.mp held
    exact .inl (h.own held found ▸ found)

theorem answer_unique (h : Stopping id call others c out) {other : Answered}
    (one : (id, answer) ∈ resolutions out) (two : (id, other) ∈ resolutions out) : answer = other := by
  have distinct : (resolvedIds out).Nodup := (h.whole.nodup_iff.mpr h.distinct).of_append_left
  exact (Prod.mk.inj (List.inj_on_of_nodup_map distinct one two rfl)).2

/-- What a calm act resolves the shutdown call with is the outcome of its response, or that its
deadline has come. -/
theorem concludes (h : Stopping id call others c out) (calm : act.Calm) (now : Time)
    (shown : (id, answer) ∈ resolutions (c.perform now act).2) : Concludes id call now act answer := by
  obtain ⟨held, found, cause⟩ := Deed.cause h.sound h.fits (perform_deed c now act) shown
  obtain rfl := h.own held found
  cases cause with
  | responded r item own =>
      obtain ⟨rid, outcome⟩ := r
      obtain rfl : rid = .number id := own
      rw [h.named, delivered_plain shutdown_ne_initialize, item]
      exact .responded outcome
  | cancelled command =>
      subst command
      cases calm with
      | filing filing => exact filing.elim
  | timedOut input due =>
      have plain : wrapped held.method (lateness id held) = lateness id held := by
        rw [h.named]
        rfl
      rw [plain, input]
      exact .timedOut due
  | ended reason failure running ceased recorded fails =>
      cases (h.stays calm now).symm.trans ceased

theorem perform (h : Stopping id call others c out) (calm : act.Calm) (now : Time) :
    Stopping id call others (c.perform now act).1 (out ++ (c.perform now act).2) := by
  have deed : Deed now c act _ _ := perform_deed c now act
  have accounted := deed_accounted h.sound deed
  have stays := h.stays calm now
  have link := (perform_kept calm h.settled now).2
  have kept {n : Nat} {held : Call} (found : (c.perform now act).1.calls.call? n = some held) :
      c.calls.call? n = some held := by
    rcases accounted.outstanding h.sound found with before | ⟨method, params, timeout, command, -⟩
    · exact before
    · exact absurd command (calm.not_request method params timeout)
  refine ⟨stays, link.trans h.up, accounted.sound h.sound, h.fits.deed h.sound deed,
    deed.punctual h.punctual, deed.counted h.counted, h.distinct, h.named, ?_, ?_,
    fun held found => h.own held (kept found), fun n held found => h.sole n held (kept found), ?_⟩
  · have running : (c.perform now act).1.state ≠ .exited := by
      rw [stays]
      decide
    rw [unprompted_append, timedOut_append, List.map_append, h.said,
      deed.recalls calm h.state running h.up h.counted]
    rfl
  · cases accounted with
    | issued method params timeout command => exact absurd command (calm.not_request method params timeout)
    | settled calls resolved silent later steady =>
        rw [resolvedIds_append, List.append_assoc]
        exact (resolved.append_left _).trans h.whole
  · rw [deed.acknowledged_iff h.sound h.fits, h.acknowledged, resolutions_append]
    constructor
    · rintro (⟨value, before⟩ | ⟨n, held, value, found, named, shown⟩)
      · exact ⟨value, List.mem_append_left _ before⟩
      · obtain rfl := h.sole n held found named
        exact ⟨value, List.mem_append_right _ shown⟩
    · rintro ⟨value, shown⟩
      rcases List.mem_append.mp shown with before | shown
      · exact .inl ⟨value, before⟩
      · obtain ⟨held, found, -⟩ := deed.cause h.sound h.fits shown
        exact .inr ⟨id, held, value, found, h.own held found ▸ h.named, shown⟩

theorem acts (h : Stopping id call others c out) {acts : List (Act η)} (calm : ∀ act ∈ acts, act.Calm)
    (now : Time) :
    Stopping id call others (c.performAll now acts).1 (out ++ (c.performAll now acts).2) ∧
      ∀ answer, (id, answer) ∈ resolutions (c.performAll now acts).2 →
        ∃ act ∈ acts, Concludes id call now act answer := by
  induction acts generalizing c out with
  | nil =>
      refine ⟨?_, fun answer shown => by cases shown⟩
      rw [performAll, Turn.each, List.append_nil]
      exact h
  | cons first acts ih =>
      have here := calm first List.mem_cons_self
      obtain ⟨rest, later⟩ := ih (h.perform here now) fun act held => calm act (List.mem_cons_of_mem _ held)
      rw [List.append_assoc] at rest
      refine ⟨rest, fun answer shown => ?_⟩
      have parts : (id, answer) ∈ resolutions ((c.perform now first).2 ++
        ((c.perform now first).1.performAll now acts).2) := shown
      rw [resolutions_append] at parts
      rcases List.mem_append.mp parts with now_shown | shown
      · exact ⟨first, List.mem_cons_self, h.concludes here now now_shown⟩
      · obtain ⟨act, held, concludes⟩ := later answer shown
        exact ⟨act, List.mem_cons_of_mem _ held, concludes⟩

theorem step (h : Stopping id call others c out) {i : Input η} (calm : i.Calm) (now : Time) :
    Stopping id call others (c.step now i).1 (out ++ (c.step now i).2) ∧
      ∀ answer, (id, answer) ∈ resolutions (c.step now i).2 →
        ∃ act ∈ c.acts i, Concludes id call now act answer := by
  rw [← performAll_acts c now i]
  exact h.acts (calm_acts calm c) now

/-- When the deadline has come the shutdown call is not waited for any longer. -/
theorem expires (h : Stopping id call others c out) (due : CallTable.Due now call) :
    (c.step now .deadline).1.calls.call? id = none := by
  have lapse := timeOuts_lapse (c.calls.expire now).1 { c with calls := (c.calls.expire now).2 }
  obtain ⟨same, -⟩ := lapse.settled h.settled
  have calls : (c.step now .deadline).1.calls = (c.calls.expire now).2 := congrArg calls same
  rw [calls]
  cases left : (c.calls.expire now).2.call? id with
  | none => rfl
  | some held =>
      obtain ⟨found, early⟩ := h.punctual.call?_expire.mp left
      rw [h.own held found] at early
      exact absurd due early

/-- The exit notification ends what is left. -/
theorem leaves (h : Stopping id call others c out) (now : Time) :
    c.handle now (.notify Method.exit none) =
      (.ok (), c.ended c.exitReason, .wrote (.notification ⟨Method.exit, none⟩)
        :: c.farewell c.exitReason (.transportClosed "session exited")) := by
  have running : c.state ≠ .exited := by
    rw [h.state]
    decide
  have valid : Method.check Method.exit = .ok () := if_pos (by decide)
  have allowed : c.session.checkNotification Method.exit = .ok () := by
    refine checkNotification_of_allowed ?_
    rw [h.state]
    decide
  simp only [handle, sendNotification, valid, allowed, write_up h.up, beq_self_eq_true, if_true,
    Turn.andThen, terminate_open running]
  rfl

end Stopping

/-! ### How a session comes to shut down -/

/-- What is said once a session shuts down does not bring it back. -/
theorem course_stopping {s t : Session.State} {said : List Message} (course : Session.Course s said t)
    (stopping : s = .shuttingDown ∨ s = .exited) : t = .shuttingDown ∨ t = .exited := by
  induction course with
  | silent => exact stopping
  | cons first rest ih =>
      refine ih ?_
      rcases stopping with rfl | rfl
      · cases first with
        | recalls => exact .inl rfl
        | leaves running => exact .inr rfl
        | replies running => exact .inl rfl
      · cases first with
        | leaves running => exact .inr rfl
        | replies running => exact .inr rfl

theorem handle_shutdown (initialized : c.state = .initialized) (up : c.link = .up) (now : Time)
    (timeout : Span) : c.handle now (.request Method.shutdown none (some timeout)) =
      (.ok c.calls.next,
        { c with calls := c.registered now Method.shutdown (some timeout)
                 session := { c.session with state := .shuttingDown } },
        [.wrote (.request ⟨.number c.calls.next, Method.shutdown, none⟩),
          .published (.stateChanged .shuttingDown)]) := by
  have valid : Method.check Method.shutdown = .ok () := if_pos (by decide)
  have allowed : c.session.checkRequest Method.shutdown = .ok () := by
    refine if_pos ?_
    rw [show c.session.state = .initialized from initialized]
    decide
  have moves : Session.stateAfterRequest c.state Method.shutdown = some .shuttingDown := by
    rw [initialized]
    decide
  simp only [handle, sendRequest, valid, allowed, write_up up, moves]
  rfl

/-- A call is outstanding once another was issued if it is that one, or was outstanding before. -/
theorem call?_registered {method : String} {timeout : Span} {n : Nat} {held : Call}
    (found : (c.registered now method (some timeout)).call? n = some held) :
    n = c.calls.next ∧ held = ⟨method, some timeout, CallTable.deadlineAfter now (some timeout)⟩ ∨
      n ≠ c.calls.next ∧ c.calls.call? n = some held := by
  rw [registered, CallTable.call?, CallTable.insert_calls, CallTable.find?] at found
  split at found
  · rename_i same
    exact .inl ⟨(eq_of_beq same).symm, (Option.some.inj found).symm⟩
  · rename_i other
    exact .inr ⟨fun same => other (beq_iff_eq.mpr same.symm), found⟩

section Ready

variable {config : ClientConfig} {history : List (Time × Input η)}

/-- An initialized session has not been asked to shut down. -/
theorem shutdown_unasked (initialized : (after config history).state = .initialized)
    (up : (after config history).link = .up) {r : Rpc.Request}
    (written : r ∈ requests (outputs config history)) : r.method ≠ Method.shutdown := by
  intro named
  obtain ⟨-, state, course, reached⟩ := after_spoken config history
  rw [reached up, initialized] at course
  obtain ⟨before, later, split⟩ := List.append_of_mem (mem_sent.mpr (mem_requests.mp written))
  rw [split] at course
  obtain ⟨_, next, -, spoken, rest⟩ := course.split
  rw [spoken.shuttingDown (beq_iff_eq.mpr named)] at rest
  rcases course_stopping rest (.inl rfl) with stuck | stuck <;> cases stuck

/-- A shutdown that an initialized session is asked for is sent, and none was acknowledged before. -/
theorem begins_stopping (initialized : (after config history).state = .initialized)
    (up : (after config history).link = .up) (now : Time) (timeout : Span) :
    let c := after config history
    let turn := c.handle now (.request Method.shutdown none (some timeout))
    turn.1 = .ok c.calls.next ∧
      Stopping c.calls.next (stopCall now timeout) c.calls.outstanding turn.2.1 turn.2.2 := by
  intro c turn
  have witnessed := after_witnessed config history
  have sound := witnessed.balanced.sound
  have deed : Deed now c _ turn.2.1 turn.2.2 :=
    handle_deed c now (.request Method.shutdown none (some timeout))
  rw [show turn = _ from handle_shutdown initialized up now timeout] at deed ⊢
  have fresh : c.calls.next ∉ c.calls.ids := fun held => Nat.lt_irrefl _ (sound.given _ held)
  refine ⟨rfl, rfl, up, (deed_accounted sound deed).sound sound, witnessed.fits.deed sound deed,
    deed.punctual (after_waiting config history).punctual,
    deed.counted (after_spoken config history).counted,
    List.nodup_cons.mpr ⟨fun held => fresh (List.mem_reverse.mp held), List.nodup_reverse.mpr sound.distinct⟩,
    rfl, rfl, (List.reverse_perm _).symm.cons _, fun held there => ?_, fun n held there named => ?_, ?_⟩
  · rcases call?_registered there with ⟨-, same⟩ | ⟨other, -⟩
    · exact same
    · exact absurd rfl other
  · rcases call?_registered there with ⟨same, -⟩ | ⟨-, before⟩
    · exact same
    · obtain ⟨params, written⟩ := witnessed.sent n held before
      exact absurd named (shutdown_unasked initialized up written)
  · constructor
    · intro acknowledged
      obtain ⟨value, n, params, written, -⟩ := witnessed.acknowledged.mp acknowledged
      exact absurd rfl (shutdown_unasked initialized up (mem_requests.mpr written))
    · rintro ⟨value, shown⟩
      cases shown

end Ready

/-! ### Sessions that are over -/

/-- Nothing is outstanding any more, and nothing can be written. -/
structure Over (c : Connection η) : Prop where
  exited : c.state = .exited
  down : c.link ≠ .up
  idle : c.calls.calls = []

theorem ended_over (c : Connection η) (reason : ExitReason) : (c.ended reason).Over :=
  ⟨rfl, closed_ne_up, rfl⟩

theorem Over.deed (h : c.Over) (deed : Deed now c act d out) :
    d.Over ∧ d.session = c.session ∧ sent out = [] ∧ resolutions out = [] := by
  have session := deed.exited_stays h.exited
  obtain ⟨silent, down⟩ := deed.sent_of_down h.down
  have sound : c.calls.Sound := by
    refine ⟨?_, fun id held => ?_⟩
    · rw [CallTable.ids, h.idle]
      exact List.nodup_nil
    · rw [CallTable.ids, h.idle] at held
      cases held
  cases deed_accounted sound deed with
  | issued method params timeout command valid allowed up => exact absurd up h.down
  | settled calls resolved =>
      rw [h.idle] at calls
      rw [show c.calls.ids = [] from congrArg (List.map Prod.fst) h.idle] at resolved
      have none := (List.append_eq_nil_iff.mp resolved.eq_nil).1
      exact ⟨⟨(congrArg Session.state session).trans h.exited, down, List.sublist_nil.mp calls⟩, session,
        silent, List.map_eq_nil_iff.mp none⟩

theorem Over.run (h : c.Over) (history : List (Time × Input η)) :
    (c.run history).1.Over ∧ (c.run history).1.session = c.session ∧ sent (c.run history).2 = [] ∧
      resolutions (c.run history).2 = [] := by
  have start : c.Over ∧ c.session = c.session ∧ sent ([] : List (Output η)) = [] ∧
      resolutions ([] : List (Output η)) = [] := ⟨h, rfl, rfl, rfl⟩
  refine run_induction (P := fun d out => d.Over ∧ d.session = c.session ∧ sent out = [] ∧
    resolutions out = []) start ?_ history
  intro now d past act e out ⟨gone, session, silent, unresolved⟩ deed
  obtain ⟨gone, same, quiet, still⟩ := gone.deed deed
  refine ⟨gone, same.trans session, ?_, ?_⟩
  · rw [sent_append, silent, quiet, List.append_nil]
  · rw [resolutions_append, unresolved, still, List.append_nil]

end Connection
end ServerProbe
