import ServerProbe.Proofs.Connection.Correlation
/-!
Passages of a session from one state to another. A deed makes at most one of them and publishes it;
so does a step, since what is received in one piece can only end the handshake.
-/

namespace ServerProbe

/-- The passages of a session: on to the next state, or to its end. -/
inductive Session.Passage : Session.State → Session.State → Prop
  | start : Passage .uninitialized .initializing
  | establish : Passage .initializing .initialized
  | stop : Passage .initialized .shuttingDown
  | finish {s : Session.State} (running : s ≠ .exited) : Passage s .exited

theorem Session.Passage.ne {s t : Session.State} (h : Session.Passage s t) : t ≠ s := by
  cases h with
  | finish running => exact running.symm
  | _ => exact fun same => by cases same

/-- The session once it has ended. -/
def Session.ceased (s : Session) (reason : ExitReason) : Session :=
  { s with state := .exited, reason := some reason }

namespace Connection

open Rpc (Id Message Notification Outcome Request Response)

variable {η : Type}

/-! ### News -/

/-- Events that tell nothing of the life of the session. -/
def Anomalous (events : List Event) : Prop := ∀ e ∈ events, ∃ anomaly, e = .anomaly anomaly

theorem Anomalous.append {a b : List Event} (ha : Anomalous a) (hb : Anomalous b) :
    Anomalous (a ++ b) := fun e held => (List.mem_append.mp held).elim (ha e) (hb e)

theorem anomalous_nil : Anomalous [] := fun _ held => by cases held

/-- All that the outputs tell of the life of the session is some news. -/
def Announces (news : List Event) (out : List (Output η)) : Prop :=
  ∃ before later, events out = before ++ news ++ later ∧ Anomalous before ∧ Anomalous later

theorem Quiet.announces {out : List (Output η)} (h : Quiet out) : Announces [] out :=
  ⟨Connection.events out, [], by simp, h.events, anomalous_nil⟩

theorem announces_of_eq {news : List Event} {out : List (Output η)} (h : events out = news) :
    Announces news out := ⟨[], [], by simp [h], anomalous_nil, anomalous_nil⟩

theorem Announces.anomalous {out : List (Output η)} (h : Announces [] out) :
    Anomalous (events out) := by
  obtain ⟨before, later, split, quiet, still⟩ := h
  rw [split, List.append_nil]
  exact quiet.append still

theorem Announces.after {news : List Event} {out more : List (Output η)} (h : Announces news out)
    (first : Announces [] more) : Announces news (more ++ out) := by
  obtain ⟨before, later, split, quiet, still⟩ := h
  refine ⟨events more ++ before, later, ?_, first.anomalous.append quiet, still⟩
  rw [events_append, split, List.append_assoc, List.append_assoc, List.append_assoc]

theorem Announces.before {news : List Event} {out more : List (Output η)} (h : Announces news out)
    (last : Announces [] more) : Announces news (out ++ more) := by
  obtain ⟨before, later, split, quiet, still⟩ := h
  refine ⟨before, later ++ events more, ?_, quiet, still.append last.anomalous⟩
  rw [events_append, split, List.append_assoc]

/-! ### Passages -/

/-- What entitles an act to end the session, by reason. -/
inductive Warrant (c : Connection η) (out : List (Output η)) : Act η → ExitReason → Prop
  | handshake {act : Act η} {why : String} (waiting : c.state = .initializing) :
      Warrant c out act (.initializeFailed why)
  | left {params : Option Json} (sent : .wrote (.notification ⟨Method.exit, params⟩) ∈ out) :
      Warrant c out (.input (.command (.notify Method.exit params))) c.exitReason
  | quit {input : Input η} {reason : ExitReason} {failure : Failure}
      (ending : Ending input reason failure) : Warrant c out (.input input) reason

/-- The capabilities are those in the answer to the handshake, which is given to the caller. -/
def Negotiates (c : Connection η) (out : List (Output η)) (capabilities : Capabilities) : Prop :=
  ∃ n call result, c.calls.call? n = some call ∧ call.method = Method.initializeRequest ∧
    (n, .ok result) ∈ resolutions out ∧ Capabilities.ofResult result = .ok capabilities

/-- What an act does to the session, and what is published of it. -/
inductive Passes (c : Connection η) (act : Act η) (d : Connection η) (out : List (Output η)) : Prop
  | stays (session : d.session = c.session) (told : Announces [] out)
  | starts {input : Input η} (asked : act = .input input) (was : c.state = .uninitialized)
      (session : d.session = { c.session with state := .initializing })
      (told : Announces [.stateChanged .initializing] out)
  | settles (capabilities : Capabilities) (was : c.state = .initializing)
      (session : d.session =
        { c.session with state := .initialized, capabilities := some capabilities })
      (told : Announces [.stateChanged .initialized] out) (given : Negotiates c out capabilities)
  | stops {input : Input η} (asked : act = .input input) (was : c.state = .initialized)
      (session : d.session = { c.session with state := .shuttingDown })
      (told : Announces [.stateChanged .shuttingDown] out)
  | ends (reason : ExitReason) (running : c.state ≠ .exited) (session : d.session = c.session.ceased reason)
      (told : Announces [.stateChanged .exited, .exited reason] out) (warrant : Warrant c out act reason)

/-- Calls that lapse end the session if the handshake is one of them. -/
theorem Lapse.passes {c d : Connection η} {expired : List (Nat × Call)} {out : List (Output η)}
    (h : Lapse c expired d out) :
    d.session = c.session ∧ events out = [] ∨
      c.state = .initializing ∧ ∃ why, d.session = c.session.ceased (.initializeFailed why) ∧
        events out = [.stateChanged .exited, .exited (.initializeFailed why)] := by
  induction h with
  | nil => exact .inl ⟨rfl, rfl⟩
  | plain other later ih => simpa [Output.event?] using ih
  | @handshake c d id call rest out failure own wrapped later ih =>
      have waiting : c.state = .initializing := eq_of_beq (Bool.and_eq_true_iff.mp own).2
      rcases ih with ⟨session, silent⟩ | ⟨again, -⟩
      · refine .inr ⟨waiting, failure.message, session, ?_⟩
        simp [Output.event?, silent]
      · cases again

theorem Deed.passes {now : Time} {c d : Connection η} {act : Act η} {out : List (Output η)}
    (deed : Deed now c act d out) : Passes c act d out := by
  cases deed with
  | idle alike unheard => exact .stays alike.session quiet_nil.announces
  | unwritten allowed down => exact .stays rfl quiet_nil.announces
  | @issued method params timeout valid allowed up =>
      rcases requestAllowed_cases allowed with ⟨unready, -, moves⟩ | ⟨ready, -, moves | moves⟩
      · refine .starts rfl unready ?_ (announces_of_eq ?_)
        · simp only [sessionAfter, moves, Option.getD_some]
        · simp [moves, Output.event?]
      · refine .stays ?_ (announces_of_eq ?_)
        · simp only [sessionAfter, moves, Option.getD_none]
          rfl
        · simp [moves, Output.event?]
      · refine .stops rfl ready ?_ (announces_of_eq ?_)
        · simp only [sessionAfter, moves, Option.getD_some]
        · simp [moves, Output.event?]
  | noted valid allowed up stays => exact .stays rfl (Quiet.announces (quiet_singleton trivial))
  | left running up =>
      refine .ends _ running rfl (announces_of_eq ?_) (.left List.mem_cons_self)
      simp [Output.event?]
  | gaveUp taken => exact .stays rfl (announces_of_eq (by simp [Output.event?]))
  | filed filing turn told => exact .stays rfl (filed_quiet told).announces
  | answered taken plain => exact .stays rfl (announces_of_eq rfl)
  | @shaken id n result call calls capabilities taken handshake usable =>
      obtain ⟨named, waiting⟩ := Bool.and_eq_true_iff.mp handshake
      refine .settles capabilities (eq_of_beq waiting) rfl (announces_of_eq ?_) ?_
      · simp [Output.event?]
      · refine ⟨n, call, result, (CallTable.takeForResponse_taken taken).2.held, eq_of_beq named, ?_,
          usable⟩
        simp [Output.resolution?]
  | refused taken handshake fails =>
      refine .ends _ (not_exited_of_isHandshake handshake) rfl (announces_of_eq ?_) (.handshake ?_)
      · simp [Output.event?]
      · exact eq_of_beq (Bool.and_eq_true_iff.mp handshake).2
  | stray missed unmatched => exact .stays rfl (Quiet.announces (quiet_singleton trivial))
  | malformed => exact .stays rfl (Quiet.announces (quiet_singleton trivial))
  | heard => exact .stays rfl (receiveNotification_quiet c _).announces
  | called handled => exact .stays rfl (Quiet.announces (quiet_singleton trivial))
  | declined unhandled => exact .stays rfl (reply_quiet c _).announces
  | finished first => exact .stays rfl (reply_quiet c _).announces
  | lapsed taken lapse =>
      rcases lapse.passes with ⟨session, silent⟩ | ⟨waiting, why, session, told⟩
      · exact .stays session (announces_of_eq silent)
      · refine .ends _ (fun gone => ?_) session (announces_of_eq told) (.handshake waiting)
        cases waiting.symm.trans gone
  | ceased running ending => exact .ends _ running rfl (announces_of_eq (by simp)) (.quit ending)
  | shut gone => exact .stays rfl (closing_quiet c).announces

/-- Acts on what was received pass the session on at most once. -/
theorem Passes.andThen {c d e : Connection η} {act : Act η} {out more : List (Output η)}
    (first : Passes c act d out) (second : Passes d act e more)
    (received : ∀ input, act ≠ .input input)
    (back : ∀ n call, d.calls.call? n = some call → c.calls.call? n = some call) (whole : Act η) :
    Passes c whole e (out ++ more) := by
  have entitled : ∀ {c : Connection η} {out : List (Output η)} {reason : ExitReason},
      Warrant c out act reason → c.state = .initializing ∧ ∃ why, reason = .initializeFailed why := by
    intro c out reason warrant
    cases warrant with
    | handshake waiting => exact ⟨waiting, _, rfl⟩
    | left sent => exact absurd rfl (received _)
    | quit ending => exact absurd rfl (received _)
  cases first with
  | stays session told =>
      have state : d.state = c.state := congrArg Session.state session
      cases second with
      | stays session' told' => exact .stays (session'.trans session) (told.before told')
      | starts asked was session' told' => exact absurd asked (received _)
      | settles capabilities was session' told' given =>
          obtain ⟨n, call, result, held, named, shown, usable⟩ := given
          refine .settles capabilities (state ▸ was) (session ▸ session') (told'.after told)
            ⟨n, call, result, back n call held, named, ?_, usable⟩
          rw [resolutions_append]
          exact List.mem_append_right _ shown
      | stops asked was session' told' => exact absurd asked (received _)
      | ends reason running session' told' warrant =>
          obtain ⟨waiting, why, rfl⟩ := entitled warrant
          exact .ends _ (state ▸ running) (session ▸ session') (told'.after told)
            (.handshake (state ▸ waiting))
  | starts asked was session told => exact absurd asked (received _)
  | settles capabilities was session told given =>
      have state : d.state = .initialized := congrArg Session.state session
      cases second with
      | stays session' told' =>
          obtain ⟨n, call, result, held, named, shown, usable⟩ := given
          refine .settles capabilities was (session'.trans session) (told.before told')
            ⟨n, call, result, held, named, ?_, usable⟩
          rw [resolutions_append]
          exact List.mem_append_left _ shown
      | starts asked was' session' told' => exact absurd asked (received _)
      | settles capabilities' was' session' told' given' => cases state.symm.trans was'
      | stops asked was' session' told' => exact absurd asked (received _)
      | ends reason running session' told' warrant => cases state.symm.trans (entitled warrant).1
  | stops asked was session told => exact absurd asked (received _)
  | ends reason running session told warrant =>
      have state : d.state = .exited := congrArg Session.state session
      obtain ⟨waiting, why, rfl⟩ := entitled warrant
      cases second with
      | stays session' told' =>
          exact .ends _ running (session'.trans session) (told.before told') (.handshake waiting)
      | starts asked was session' told' => exact absurd asked (received _)
      | settles capabilities was session' told' given => cases state.symm.trans was
      | stops asked was session' told' => exact absurd asked (received _)
      | ends reason' running' session' told' warrant' => exact absurd state running'

theorem Deeds.passes {now : Time} {acts : List (Act η)} {c d : Connection η} {out : List (Output η)}
    (h : Deeds now acts c d out) (sound : c.calls.Sound)
    (received : ∀ act ∈ acts, ∀ input, act ≠ .input input) : ∀ whole, Passes c whole d out := by
  induction h with
  | nil => exact fun whole => .stays rfl quiet_nil.announces
  | @cons act acts c d e out more first _ ih =>
      have here := received act List.mem_cons_self
      have accounted := deed_accounted sound first
      have rest := ih (accounted.sound sound) fun act held => received act (List.mem_cons_of_mem _ held)
      refine first.passes.andThen (rest act) here fun n call held => ?_
      rcases accounted.outstanding sound held with kept | ⟨method, params, timeout, command, -⟩
      · exact kept
      · exact absurd command (here _)

/-- A step passes the session on at most once. -/
theorem step_passes {c : Connection η} (sound : c.calls.Sound) (now : Time) (input : Input η) :
    Passes c (.input input) (c.step now input).1 (c.step now input).2 := by
  by_cases bytes : ∃ bytes, input = .received bytes
  · obtain ⟨bytes, rfl⟩ := bytes
    exact (step_deeds c now (.received bytes)).passes sound (fun act held => received_ne_input held) _
  · have deed : DeedOf now c (.input input) (c.step now input) :=
      step_deed fun b same => bytes ⟨b, same⟩
    exact deed.passes

end Connection
end ServerProbe
