import ServerProbe.Proofs.Connection.Moment
import ServerProbe.Proofs.Connection.Provenance
/-!
The order of what a client writes. `Session.Speaks` tells what may be written in a state and to which
state that leads; over every history the messages of a connection are a course of such steps, for as
long as its link is up.
-/

namespace ServerProbe

open Rpc (Id Message Notification Outcome Request Response)

namespace Rpc.Message

def asks (method : String) : Message → Bool
  | .request r => r.method == method
  | _ => false

def tells (method : String) : Message → Bool
  | .notification n => n.method == method
  | _ => false

def isReply : Message → Bool
  | .response _ => true
  | _ => false

end Rpc.Message

namespace Session

inductive Speaks : State → Message → State → Prop
  | opens {id : Id} {params : Option Json} :
      Speaks .uninitialized (.request ⟨id, Method.initializeRequest, params⟩) .initializing
  | aside {n : Notification} (optional : Method.isOptional n.method = true) :
      Speaks .initializing (.notification n) .initializing
  | established {params : Option Json} :
      Speaks .initializing (.notification ⟨Method.initializedNotice, params⟩) .initialized
  | asks {r : Request} (handshake : r.method ≠ Method.initializeRequest)
      (stop : r.method ≠ Method.shutdown) : Speaks .initialized (.request r) .initialized
  | tells {n : Notification} (handshake : n.method ≠ Method.initializedNotice)
      (stays : n.method ≠ Method.exit) : Speaks .initialized (.notification n) .initialized
  | stops {id : Id} {params : Option Json} :
      Speaks .initialized (.request ⟨id, Method.shutdown, params⟩) .shuttingDown
  | recalls {params : Option Json} :
      Speaks .shuttingDown (.notification ⟨Method.cancelRequest, params⟩) .shuttingDown
  | leaves {s : State} {params : Option Json} (running : s ≠ .exited) :
      Speaks s (.notification ⟨Method.exit, params⟩) .exited
  | replies {s : State} {r : Response} (running : s ≠ .exited) : Speaks s (.response r) s

inductive Course : State → List Message → State → Prop
  | silent {s : State} : Course s [] s
  | cons {s t u : State} {m : Message} {later : List Message} (first : Speaks s m t)
      (rest : Course t later u) : Course s (m :: later) u

theorem Course.one {s t : State} {m : Message} (spoken : Speaks s m t) : Course s [m] t :=
  .cons spoken .silent

theorem Course.append {s t u : State} {a b : List Message} (first : Course s a t)
    (later : Course t b u) : Course s (a ++ b) u := by
  induction first with
  | silent => exact later
  | cons first _ ih => exact .cons first (ih later)

/-- What is said in a course is said in some state. -/
theorem Course.split {s u : State} {before later : List Message} {m : Message}
    (course : Course s (before ++ m :: later) u) :
    ∃ state next, Course s before state ∧ Speaks state m next ∧ Course next later u := by
  induction before generalizing s with
  | nil =>
      cases course with
      | cons first rest => exact ⟨s, _, .silent, first, rest⟩
  | cons x before ih =>
      cases course with
      | cons first rest =>
          obtain ⟨state, next, early, here, late⟩ := ih rest
          exact ⟨state, next, .cons first early, here, late⟩

/-! ### What has been said in a state -/

/-- How often a handshake has been asked for and concluded when the session is in a state. -/
def Tally : State → Nat → Nat → Prop
  | .uninitialized, asked, concluded => asked = 0 ∧ concluded = 0
  | .initializing, asked, concluded => asked = 1 ∧ concluded = 0
  | .initialized, asked, concluded => asked = 1 ∧ concluded = 1
  | .shuttingDown, asked, concluded => asked = 1 ∧ concluded = 1
  | .exited, asked, concluded => asked ≤ 1 ∧ concluded ≤ 1

theorem Tally.atMostOnce {s : State} {asked concluded : Nat} (h : Tally s asked concluded) :
    asked ≤ 1 ∧ concluded ≤ 1 := by
  cases s with
  | exited => exact h
  | _ =>
      obtain ⟨rfl, rfl⟩ := h
      exact ⟨by decide, by decide⟩

theorem isOptional_exit : Method.isOptional Method.exit = false := by decide

theorem isOptional_initializedNotice : Method.isOptional Method.initializedNotice = false := by decide

theorem Speaks.tally {s t : State} {m : Message} (spoken : Speaks s m t) {asked concluded : Nat}
    (h : Tally s asked concluded) :
    Tally t (asked + if m.asks Method.initializeRequest then 1 else 0)
      (concluded + if m.tells Method.initializedNotice then 1 else 0) := by
  cases spoken with
  | opens =>
      obtain ⟨rfl, rfl⟩ := h
      exact ⟨rfl, rfl⟩
  | @aside n optional =>
      have other : (n.method == Method.initializedNotice) = false := by
        refine beq_eq_false_iff_ne.mpr fun same => ?_
        rw [same, isOptional_initializedNotice] at optional
        cases optional
      simpa only [Message.asks, Message.tells, other, Bool.false_eq_true, if_false,
        Nat.add_zero] using h
  | established =>
      obtain ⟨rfl, rfl⟩ := h
      exact ⟨rfl, rfl⟩
  | asks handshake stop =>
      simpa only [Message.asks, Message.tells, beq_eq_false_iff_ne.mpr handshake,
        Bool.false_eq_true, if_false, Nat.add_zero] using h
  | tells handshake stays =>
      simpa only [Message.asks, Message.tells, beq_eq_false_iff_ne.mpr handshake,
        Bool.false_eq_true, if_false, Nat.add_zero] using h
  | stops => exact h
  | recalls => exact h
  | leaves running => exact h.atMostOnce
  | replies running => exact h

theorem Course.tally {s t : State} {said : List Message} (course : Course s said t)
    {asked concluded : Nat} (h : Tally s asked concluded) :
    Tally t (asked + said.countP (Message.asks Method.initializeRequest))
      (concluded + said.countP (Message.tells Method.initializedNotice)) := by
  induction course generalizing asked concluded with
  | silent => exact h
  | @cons s t u m later first rest ih =>
      have there := ih (first.tally h)
      rw [List.countP_cons, List.countP_cons]
      simpa only [Nat.add_assoc, Nat.add_comm, Nat.add_left_comm] using there

theorem Course.tally_start {t : State} {said : List Message} (course : Course .uninitialized said t) :
    Tally t (said.countP (Message.asks Method.initializeRequest))
      (said.countP (Message.tells Method.initializedNotice)) := by
  have start : Tally .uninitialized 0 0 := ⟨rfl, rfl⟩
  have counted := course.tally start
  rwa [Nat.zero_add, Nat.zero_add] at counted

section

variable {s t : State} {m : Message} {asked concluded : Nat}

/-- Before a handshake is asked for there is nothing to say but the exit. -/
theorem Speaks.unasked (spoken : Speaks s m t) (own : m.isReply = false) (tally : Tally s 0 concluded) :
    m.asks Method.initializeRequest = true ∨ m.tells Method.exit = true := by
  cases spoken with
  | opens => exact .inl rfl
  | leaves running => exact .inr rfl
  | replies running => cases own
  | aside optional => cases tally.1
  | established => cases tally.1
  | asks handshake stop => cases tally.1
  | tells handshake stays => cases tally.1
  | stops => cases tally.1
  | recalls => cases tally.1

theorem Speaks.unconcluded (spoken : Speaks s m t) (own : m.isReply = false) (tally : Tally s asked 0)
    (opened : 0 < asked) : m.tells Method.initializedNotice = true ∨ m.tells Method.exit = true ∨
      ∃ n, m = .notification n ∧ Method.isOptional n.method = true := by
  cases spoken with
  | opens => exact absurd tally.1 (Nat.ne_of_gt opened)
  | aside optional => exact .inr (.inr ⟨_, rfl, optional⟩)
  | established => exact .inl rfl
  | leaves running => exact .inr (.inl rfl)
  | replies running => cases own
  | asks handshake stop => cases tally.2
  | tells handshake stays => cases tally.2
  | stops => cases tally.2
  | recalls => cases tally.2

theorem Speaks.concluded_of_request {r : Request} (spoken : Speaks s (.request r) t)
    (other : r.method ≠ Method.initializeRequest) (tally : Tally s asked concluded) :
    concluded = 1 := by
  cases spoken with
  | opens => exact absurd rfl other
  | asks handshake stop => exact tally.2
  | stops => exact tally.2

theorem Speaks.shuttingDown (spoken : Speaks s m t) (stop : m.asks Method.shutdown = true) :
    t = .shuttingDown := by
  cases spoken with
  | opens => cases stop
  | asks handshake continues => exact absurd (eq_of_beq stop) continues
  | stops => rfl
  | _ => cases stop

theorem Speaks.exited (spoken : Speaks s m t) (left : m.tells Method.exit = true) : t = .exited := by
  cases spoken with
  | aside optional =>
      rw [eq_of_beq left, isOptional_exit] at optional
      cases optional
  | tells handshake stays => exact absurd (eq_of_beq left) stays
  | leaves running => rfl
  | _ => cases left

end

/-- Once a shutdown has been asked for, only replies, recalls and the exit are to come. -/
theorem Course.stopping {t : State} {said : List Message} (course : Course .shuttingDown said t) :
    ∀ m ∈ said, m.isReply = true ∨ m.tells Method.cancelRequest = true ∨
      m.tells Method.exit = true := by
  generalize stopping : State.shuttingDown = s at course
  induction course with
  | silent =>
      intro m held
      cases held
  | @cons s t u m later first rest ih =>
      subst stopping
      intro x held
      cases first with
      | recalls =>
          rcases List.mem_cons.mp held with rfl | others
          · exact .inr (.inl rfl)
          · exact ih rfl x others
      | leaves running =>
          cases rest with
          | silent =>
              obtain rfl := List.mem_singleton.mp held
              exact .inr (.inr rfl)
          | cons gone _ =>
              cases gone with
              | leaves running => exact absurd rfl running
              | replies running => exact absurd rfl running
      | replies running =>
          rcases List.mem_cons.mp held with rfl | others
          · exact .inl rfl
          · exact ih rfl x others

theorem Course.exited {t : State} {said : List Message} (course : Course .exited said t) :
    said = [] := by
  cases course with
  | silent => rfl
  | cons first rest =>
      cases first with
      | leaves running => exact absurd rfl running
      | replies running => exact absurd rfl running

end Session

namespace Connection

variable {η : Type}

/-! ### What a deed writes -/

theorem cancelRequest_ne_exit : Method.cancelRequest ≠ Method.exit := by decide

theorem speaks_notification {s : Session.State} {n : Notification}
    (allowed : Session.notificationAllowed s n.method = true) (stays : n.method ≠ Method.exit) :
    Session.Speaks s (.notification n) s := by
  have other : (n.method == Method.exit) = false := beq_eq_false_iff_ne.mpr stays
  cases s with
  | uninitialized => exact absurd (eq_of_beq allowed) stays
  | initializing =>
      simp only [Session.notificationAllowed, other, Bool.false_or] at allowed
      exact .aside allowed
  | initialized =>
      simp only [Session.notificationAllowed, bne_iff_ne] at allowed
      exact .tells allowed stays
  | shuttingDown =>
      simp only [Session.notificationAllowed, other, Bool.false_or, beq_iff_eq] at allowed
      obtain ⟨method, params⟩ := n
      subst allowed
      exact .recalls
  | exited => cases allowed

theorem speaks_request {c : Connection η} {id : Id} {method : String} {params : Option Json}
    (allowed : Session.requestAllowed c.state method = true) :
    Session.Speaks c.state (.request ⟨id, method, params⟩) (c.sessionAfter method).state := by
  rcases requestAllowed_cases allowed with ⟨unready, rfl, moves⟩ | ⟨ready, other, stays | stops⟩
  · have next : (c.sessionAfter Method.initializeRequest).state = .initializing := by
      simp only [sessionAfter, moves, Option.getD_some]
    rw [next, unready]
    exact .opens
  · have next : (c.sessionAfter method).state = .initialized := by
      simp only [sessionAfter, stays, Option.getD_none]
      exact ready
    have continues : method ≠ Method.shutdown := by
      rintro rfl
      rw [ready] at stays
      cases stays
    rw [next, ready]
    exact .asks other continues
  · have next : (c.sessionAfter method).state = .shuttingDown := by
      simp only [sessionAfter, stops, Option.getD_some]
    have named : method = Method.shutdown := by
      rw [ready] at stops
      by_contra continues
      simp [Session.stateAfterRequest, continues] at stops
    subst named
    rw [next, ready]
    exact .stops

theorem course_cancelNotice {c : Connection η} (up : c.link = .up) (id : Nat) :
    Session.Course c.state (sent (c.cancelNotice id)) c.state := by
  rw [cancelNotice_of_up up]
  split
  · rename_i allowed
    exact .one (speaks_notification (n := ⟨Method.cancelRequest, _⟩) allowed cancelRequest_ne_exit)
  · exact .silent

theorem course_reply {c : Connection η} (up : c.link = .up) (r : Response) :
    Session.Course c.state (sent (c.reply r).2) c.state := by
  by_cases gone : c.state = .exited
  · rw [reply_of_exited gone]
    exact .silent
  · rw [reply_of_up gone up]
    exact .one (.replies gone)

/-- What is written on a link that is up is a course from the state before. It leads to the state
after, unless the link is not up any more. -/
def Follows (c d : Connection η) (out : List (Output η)) : Prop :=
  ∃ s, Session.Course c.state (sent out) s ∧ (d.link = .up → s = d.state)

theorem Follows.silent {c d : Connection η} {out : List (Output η)} (nothing : sent out = [])
    (kept : d.link = .up → d.state = c.state) : Follows c d out := by
  refine ⟨c.state, ?_, fun up => (kept up).symm⟩
  rw [nothing]
  exact .silent

theorem Follows.course {c d : Connection η} {out : List (Output η)}
    (course : Session.Course c.state (sent out) d.state) : Follows c d out := ⟨d.state, course, fun _ => rfl⟩

theorem Lapse.follows {c d : Connection η} {expired : List (Nat × Call)} {out : List (Output η)}
    (h : Lapse c expired d out) (up : c.link = .up) : Follows c d out := by
  induction h with
  | nil => exact .silent rfl fun _ => rfl
  | @plain c d id call rest out other later ih =>
      obtain ⟨s, course, kept⟩ := ih up
      refine ⟨s, ?_, kept⟩
      rw [sent_append, sent_cons]
      exact (course_cancelNotice up id).append course
  | @handshake c d id call rest out failure own wrapped later ih =>
      -- The link is closed now, so the calls that lapse after this one are not told of.
      obtain ⟨silent, down⟩ := later.sent_of_down closed_ne_up
      refine ⟨c.state, ?_, fun up => absurd up down⟩
      have said : sent (c.cancelNotice id ++ .resolved id (.error failure)
          :: c.farewell (.initializeFailed failure.message) (.transportClosed "initialize failed")
          ++ out) = sent (c.cancelNotice id) := by
        simp [Output.message?, silent]
      rw [said]
      exact course_cancelNotice up id

theorem Deed.follows {now : Time} {c d : Connection η} {act : Act η} {out : List (Output η)}
    (deed : Deed now c act d out) (counted : c.documents.Counted) (up : c.link = .up) :
    Follows c d out := by
  cases deed with
  | idle alike unheard => exact .silent rfl fun _ => congrArg Session.state alike.session
  | unwritten allowed down => exact absurd up down
  | @issued method params timeout valid allowed _ =>
      refine .course ?_
      rw [sent_cons, sent_announced, List.append_nil]
      exact .one (speaks_request allowed)
  | noted valid allowed _ stays => exact .course (.one (speaks_notification allowed stays))
  | left running _ =>
      refine ⟨.exited, ?_, fun up => absurd up closed_ne_up⟩
      rw [sent_cons, sent_farewell, List.append_nil]
      exact .one (.leaves running)
  | @gaveUp n call calls taken =>
      refine .course ?_
      rw [sent_cons]
      exact course_cancelNotice up n
  | filed filing turn told =>
      refine .course ?_
      cases told with
      | silent => exact .silent
      | told method params _ allowed file =>
          have stays : method ≠ Method.exit := by
            rintro rfl
            revert file
            decide
          exact .one (speaks_notification (n := ⟨method, some params⟩) (allowed counted) stays)
  | answered taken plain => exact .silent rfl fun _ => rfl
  | @shaken id n result call calls capabilities taken handshake usable =>
      refine .course ?_
      have waiting : c.state = .initializing := eq_of_beq (Bool.and_eq_true_iff.mp handshake).2
      rw [tryWrite_up up, waiting]
      exact .one .established
  | refused taken handshake fails =>
      refine .silent ?_ fun up => absurd up closed_ne_up
      rw [sent_cons, sent_farewell]
      rfl
  | stray missed unmatched => exact .silent rfl fun _ => rfl
  | malformed => exact .silent rfl fun _ => rfl
  | heard => exact .silent (sent_receiveNotification c _) fun _ => rfl
  | called handled => exact .silent rfl fun _ => rfl
  | declined unhandled => exact .course (course_reply up _)
  | finished first => exact .course (course_reply up _)
  | lapsed taken lapse => exact lapse.follows up
  | ceased running ending => exact .silent (sent_farewell c _ _) fun up => absurd up closed_ne_up
  | shut gone => exact .silent (sent_closing c) fun up => absurd up closed_ne_up

/-! ### What a connection has written -/

/-- All that has been written is a course, which has led to the present state if the link is up. -/
structure Spoken (c : Connection η) (past : List (Output η)) : Prop where
  counted : c.documents.Counted
  course : ∃ s, Session.Course .uninitialized (sent past) s ∧ (c.link = .up → s = c.state)

theorem Spoken.deed {now : Time} {c d : Connection η} {past out : List (Output η)} {act : Act η}
    (h : Spoken c past) (deed : Deed now c act d out) : Spoken d (past ++ out) := by
  refine ⟨deed.counted h.counted, ?_⟩
  obtain ⟨s, course, here⟩ := h.course
  rw [sent_append]
  by_cases up : c.link = .up
  · obtain ⟨t, more, there⟩ := deed.follows h.counted up
    rw [← here up] at more
    exact ⟨t, course.append more, there⟩
  · obtain ⟨silent, down⟩ := deed.sent_of_down up
    refine ⟨s, ?_, fun up => absurd up down⟩
    rwa [silent, List.append_nil]

theorem after_spoken (config : ClientConfig) (history : List (Time × Input η)) :
    Spoken (after config history) (outputs config history) := by
  have start : Spoken (fresh config : Connection η) [] :=
    ⟨fun e held => (by cases held), .uninitialized, .silent, fun _ => rfl⟩
  exact run_induction start (fun held deed => held.deed deed) history

/-! ### The handshake is concluded by its answer -/

theorem never_allowed (s : Session.State) :
    Session.notificationAllowed s Method.initializedNotice = false := by
  cases s <;> decide

/-- The handshake is concluded by its answer only: a usable result of an outstanding call. -/
theorem Deed.concludes {now : Time} {c d : Connection η} {act : Act η} {out : List (Output η)}
    (deed : Deed now c act d out) {m : Message} (held : m ∈ sent out)
    (concluded : m.tells Method.initializedNotice = true) :
    ∃ (id : Nat) (result : Json) (call : Call) (capabilities : Capabilities),
      act = .item (.ok (.response ⟨.number id, .ok result⟩)) ∧ c.calls.call? id = some call ∧
        call.method = Method.initializeRequest ∧ Capabilities.ofResult result = .ok capabilities := by
  cases deed.said m held with
  | concluded taken handshake usable =>
      have named := eq_of_beq (Bool.and_eq_true_iff.mp handshake).1
      exact ⟨_, _, _, _, rfl, taken.held, named, usable⟩
  | @noted method params allowed =>
      obtain rfl : method = Method.initializedNotice := eq_of_beq concluded
      rw [never_allowed] at allowed
      cases allowed
  | @filed command method params filing file =>
      have others : ∀ name ∈ [Method.didOpen, Method.didChange, Method.didClose],
          (name == Method.initializedNotice) = false := by decide
      exact Bool.noConfusion ((others method file).symm.trans concluded)
  | asked => cases concluded
  | left => cases concluded
  | recalled => cases concluded
  | declined => cases concluded
  | finished first => cases concluded

/-! ### The order of what is written -/

/-- What a client writes in a history, in order. Replies to the server are set aside, except that none
is written after the exit. -/
structure Orderly (config : ClientConfig) (history : List (Time × Input η)) : Prop where
  opened_once : (sent (outputs config history)).countP (Message.asks Method.initializeRequest) ≤ 1
  concluded_once :
    (sent (outputs config history)).countP (Message.tells Method.initializedNotice) ≤ 1
  /-- Every other request comes after the end of the handshake. -/
  requests_after : ∀ before r later, sent (outputs config history) = before ++ .request r :: later →
    r.method ≠ Method.initializeRequest →
    before.countP (Message.tells Method.initializedNotice) = 1
  nothing_before : ∀ before m later, sent (outputs config history) = before ++ m :: later →
    m.isReply = false → before.countP (Message.asks Method.initializeRequest) = 0 →
    m.asks Method.initializeRequest = true ∨ m.tells Method.exit = true
  between : ∀ before m later, sent (outputs config history) = before ++ m :: later →
    m.isReply = false → 0 < before.countP (Message.asks Method.initializeRequest) →
    before.countP (Message.tells Method.initializedNotice) = 0 →
    m.tells Method.initializedNotice = true ∨ m.tells Method.exit = true ∨
      ∃ n, m = .notification n ∧ Method.isOptional n.method = true
  /-- The handshake is concluded when its request is answered with a usable result. -/
  concluded : ∀ early m late, past config history = early ++ m :: late →
    (∃ x ∈ sent m.out, x.tells Method.initializedNotice = true) →
    ∃ (id : Nat) (params : Option Json) (result : Json) (capabilities : Capabilities),
      .request ⟨.number id, Method.initializeRequest, params⟩ ∈ sent (written early) ∧
      m.act = .item (.ok (.response ⟨.number id, .ok result⟩)) ∧
      Capabilities.ofResult result = .ok capabilities
  stopping : ∀ before m later, sent (outputs config history) = before ++ m :: later →
    m.asks Method.shutdown = true → ∀ x ∈ later, x.isReply = true ∨
      x.tells Method.cancelRequest = true ∨ x.tells Method.exit = true
  silent : ∀ before m later, sent (outputs config history) = before ++ m :: later →
    m.tells Method.exit = true → later = []

theorem witnessed_at {config : ClientConfig} {history : List (Time × Input η)}
    {early late : List (Moment η)} {m : Moment η} (split : past config history = early ++ m :: late) :
    Witnessed m.before (written early) := by
  refine past_at (P := fun c ms => Witnessed c (written ms)) (fresh_witnessed config) ?_ split
  intro n _ ms held
  rw [written_append, written_singleton]
  exact held.deed n.dealt

theorem orderly (config : ClientConfig) (history : List (Time × Input η)) :
    Orderly config history := by
  obtain ⟨-, last, course, -⟩ := after_spoken config history
  have counts := course.tally_start.atMostOnce
  -- Each message is spoken in a state, and the state tells how far the handshake was by then.
  have spoken : ∀ {before m later}, sent (outputs config history) = before ++ m :: later →
      ∃ s t, Session.Tally s (before.countP (Message.asks Method.initializeRequest))
          (before.countP (Message.tells Method.initializedNotice)) ∧
        Session.Speaks s m t ∧ Session.Course t later last := by
    intro before m later split
    rw [split] at course
    obtain ⟨s, t, early, here, late⟩ := course.split
    exact ⟨s, t, early.tally_start, here, late⟩
  refine ⟨counts.1, counts.2, ?_, ?_, ?_, ?_, ?_, ?_⟩
  · intro before r later split other
    obtain ⟨s, t, tally, here, -⟩ := spoken split
    exact here.concluded_of_request other tally
  · intro before m later split own unasked
    obtain ⟨s, t, tally, here, -⟩ := spoken split
    exact here.unasked own (unasked ▸ tally)
  · intro before m later split own asked unconcluded
    obtain ⟨s, t, tally, here, -⟩ := spoken split
    exact here.unconcluded own (unconcluded ▸ tally) asked
  · intro early m late split ⟨x, held, concluded⟩
    obtain ⟨id, result, call, capabilities, act, outstanding, named, usable⟩ :=
      m.dealt.concludes held concluded
    obtain ⟨params, asked⟩ := (witnessed_at split).sent id call outstanding
    rw [named] at asked
    exact ⟨id, params, result, capabilities, mem_sent.mpr (mem_requests.mp asked), act, usable⟩
  · intro before m later split stop
    obtain ⟨s, t, -, here, rest⟩ := spoken split
    rw [here.shuttingDown stop] at rest
    exact rest.stopping
  · intro before m later split left
    obtain ⟨s, t, -, here, rest⟩ := spoken split
    rw [here.exited left] at rest
    exact rest.exited

end Connection

end ServerProbe
