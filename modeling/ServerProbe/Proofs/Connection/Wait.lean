import ServerProbe.Proofs.Call.Deadline
import ServerProbe.Proofs.Connection.Moment
import ServerProbe.Proofs.Connection.Passage
/-!
How long a session initializes: while its handshake is outstanding, which ends with the response, with
the deadline or with the transport. But a handshake can be taken back, and then nothing of this comes
any more: the session stays as it is until somebody ends it.
-/

namespace ServerProbe.Connection

open Rpc (Id Outcome Response)

variable {η : Type}

/-- The handshake is outstanding under this id. -/
def Awaits (c : Connection η) (id : Nat) (call : Call) : Prop :=
  c.calls.call? id = some call ∧ call.method = Method.initializeRequest

/-- The moment takes back a handshake that is outstanding. -/
def Moment.Withdraws (m : Moment η) : Prop :=
  ∃ (id : Nat) (call : Call), m.act = .input (.command (.cancel (.number id))) ∧ m.before.Awaits id call

/-- Inputs that end a session whatever it waits for. -/
inductive Leaving : Input η → Prop
  | ending {input : Input η} {reason : ExitReason} {failure : Failure}
      (ending : Ending input reason failure) : Leaving input
  | exit (params : Option Json) : Leaving (.command (.notify Method.exit params))

variable {now : Time} {c d : Connection η} {act : Act η} {out : List (Output η)}

/-! ### Sessions that initialize -/

/-- A session with an outstanding handshake initializes. -/
theorem Awaits.waiting {id : Nat} {call : Call} (awaits : c.Awaits id call)
    (fits : Fitting c.state c.calls.calls) : c.state = .initializing :=
  (fits.own _ (CallTable.mem_of_find? awaits.1)).mp awaits.2

theorem Awaits.isHandshake {id : Nat} {call : Call} (awaits : c.Awaits id call)
    (fits : Fitting c.state c.calls.calls) : c.isHandshake call = true :=
  (fits.isHandshake_iff awaits.1).mpr awaits.2

/-- Any call that a session waits for while it initializes is the handshake. -/
theorem Fitting.awaits (fits : Fitting c.state c.calls.calls) (waiting : c.state = .initializing)
    {id : Nat} {call : Call} (held : c.calls.call? id = some call) : c.Awaits id call :=
  ⟨held, (fits.own _ (CallTable.mem_of_find? held)).mpr waiting⟩

/-- While a session initializes, no call lapses without ending it. -/
theorem Lapse.waiting {expired : List (Nat × Call)} (lapse : Lapse c expired d out)
    (waiting : c.state = .initializing) (own : ∀ e ∈ expired, e.2.method = Method.initializeRequest) :
    expired = [] ∧ d = c ∨ d.state = .exited := by
  cases lapse with
  | nil => exact .inl ⟨rfl, rfl⟩
  | @plain c d id call rest out other later =>
      have handshake : c.isHandshake call = true := by
        have named := own _ List.mem_cons_self
        simpa [isHandshake, waiting] using named
      rw [handshake] at other
      cases other
  | @handshake c d id call rest out failure own wrapped later =>
      exact .inr (congrArg Session.state (later.exited_stays rfl))

/-- A session left as it was, with its calls, waits as it did. -/
theorem waits_on (session : d.session = c.session) (calls : d.calls.calls = c.calls.calls)
    (waiting : d.state = .initializing) :
    (∃ id call, d.Awaits id call) ∨ (c.state = .initializing ∧ ¬ ∃ id call, c.Awaits id call) := by
  have same : (∃ id call, d.Awaits id call) ↔ ∃ id call, c.Awaits id call := by
    simp only [Awaits, CallTable.call?, calls]
  rw [same]
  by_cases awaited : ∃ id call, c.Awaits id call
  · exact .inl awaited
  · exact .inr ⟨(congrArg Session.state session).symm.trans waiting, awaited⟩

/-- A deed after which the session initializes has sent the handshake or left it outstanding, unless it
was gone before or is taken back by the deed. -/
theorem Deed.waits (deed : Deed now c act d out) (fits : Fitting c.state c.calls.calls)
    (waiting : d.state = .initializing) :
    ((∃ id call, d.Awaits id call) ∨ (c.state = .initializing ∧ ¬ ∃ id call, c.Awaits id call)) ∨
      ∃ (n : Nat) (call : Call), act = .input (.command (.cancel (.number n))) ∧ c.Awaits n call := by
  cases deed with
  | idle alike unheard => exact .inl (waits_on alike.session (congrArg CallTable.calls alike.calls) waiting)
  | unwritten allowed down =>
      rw [show c.state = .initializing from waiting] at allowed
      cases allowed
  | @issued method params timeout valid allowed up =>
      rcases requestAllowed_cases allowed with ⟨-, named, -⟩ | ⟨ready, -, moves⟩
      · have issued : (c.registered now method timeout).call? c.calls.next =
            some ⟨method, timeout <|> c.defaultTimeout method,
              CallTable.deadlineAfter now (timeout <|> c.defaultTimeout method)⟩ :=
          if_pos (beq_self_eq_true c.calls.next)
        exact .inl (.inl ⟨c.calls.next, _, issued, named⟩)
      · have running : (c.sessionAfter method).state ≠ .initializing := by
          intro entered
          rcases moves with stays | stops
          · simp only [sessionAfter, stays, Option.getD_none] at entered
            cases ready.symm.trans entered
          · simp only [sessionAfter, stops, Option.getD_some, reduceCtorEq] at entered
        exact absurd waiting running
  | noted valid allowed up stays => exact .inl (waits_on rfl rfl waiting)
  | left running up => cases waiting
  | @gaveUp n call calls taken =>
      have held := (CallTable.cancel_taken taken).held
      exact .inr ⟨n, call, rfl, fits.awaits waiting held⟩
  | filed filing turn told => exact .inl (waits_on rfl rfl waiting)
  | @answered r id call calls taken plain =>
      have held := (CallTable.takeForResponse_taken taken).2.held
      rw [(fits.awaits waiting held).isHandshake fits] at plain
      cases plain
  | shaken taken handshake usable => cases waiting
  | refused taken handshake fails => cases waiting
  | stray missed unmatched =>
      exact .inl (waits_on rfl (CallTable.takeForResponse_unmatched missed unmatched).1 waiting)
  | malformed => exact .inl (waits_on rfl rfl waiting)
  | heard => exact .inl (waits_on rfl rfl waiting)
  | called handled => exact .inl (waits_on rfl rfl waiting)
  | declined unhandled => exact .inl (waits_on rfl rfl waiting)
  | finished first => exact .inl (waits_on rfl rfl waiting)
  | @lapsed expired calls d out taken lapse =>
      have drawn := CallTable.expire_drawn taken
      have before : c.state = .initializing := by
        rcases lapse.passes with ⟨same, -⟩ | ⟨was, -⟩
        · exact (congrArg Session.state same).symm.trans waiting
        · exact was
      have own : ∀ e ∈ expired, e.2.method = Method.initializeRequest :=
        fun e held => (fits.awaits before (drawn.held e held).1).2
      rcases lapse.waiting before own with ⟨rfl, rfl⟩ | ended
      · cases drawn with
        | nil next same => exact .inl (waits_on rfl same waiting)
      · cases ended.symm.trans waiting
  | ceased running ending => cases waiting
  | shut gone => cases gone.symm.trans waiting

/-- Without its handshake a session initializes until it is left. -/
theorem Deed.forsaken (deed : Deed now c act d out) (waiting : c.state = .initializing)
    (none : c.calls.calls = []) : d.calls.calls = [] ∧
      (d.state = .initializing ∨ d.state = .exited ∧ ∃ input, act = .input input ∧ Leaving input) := by
  have absent {n : Nat} {call : Call} (held : c.calls.call? n = some call) : False := by
    rw [CallTable.call?, none] at held
    cases held
  cases deed with
  | idle alike unheard =>
      refine ⟨?_, .inl ?_⟩
      · rw [alike.calls, none]
      · exact (congrArg Session.state alike.session).trans waiting
  | unwritten allowed down =>
      rw [waiting] at allowed
      cases allowed
  | issued valid allowed up =>
      rw [waiting] at allowed
      cases allowed
  | noted valid allowed up stays => exact ⟨none, .inl waiting⟩
  | left running up => exact ⟨rfl, .inr ⟨rfl, _, rfl, .exit _⟩⟩
  | gaveUp taken => exact (absent (CallTable.cancel_taken taken).held).elim
  | filed filing turn told => exact ⟨none, .inl waiting⟩
  | answered taken plain => exact (absent (CallTable.takeForResponse_taken taken).2.held).elim
  | shaken taken handshake usable => exact (absent (CallTable.takeForResponse_taken taken).2.held).elim
  | refused taken handshake fails => exact (absent (CallTable.takeForResponse_taken taken).2.held).elim
  | stray missed unmatched =>
      exact ⟨(CallTable.takeForResponse_unmatched missed unmatched).1.trans none, .inl waiting⟩
  | malformed => exact ⟨none, .inl waiting⟩
  | heard => exact ⟨none, .inl waiting⟩
  | called handled => exact ⟨none, .inl waiting⟩
  | declined unhandled => exact ⟨none, .inl waiting⟩
  | finished first => exact ⟨none, .inl waiting⟩
  | @lapsed expired calls d out taken lapse =>
      cases CallTable.expire_drawn taken with
      | nil next same =>
          cases lapse
          exact ⟨same.trans none, .inl waiting⟩
      | cons first due rest => exact (absent first.held).elim
  | ceased running ending => exact ⟨rfl, .inr ⟨rfl, _, rfl, .ending ending⟩⟩
  | shut gone => cases gone.symm.trans waiting

theorem Deed.punctual (deed : Deed now c act d out) (punctual : c.calls.Punctual) :
    d.calls.Punctual := by
  have lapses {c d : Connection η} {expired : List (Nat × Call)} {out : List (Output η)}
      (lapse : Lapse c expired d out) (punctual : c.calls.Punctual) : d.calls.Punctual := by
    induction lapse with
    | nil => exact punctual
    | plain other later ih => exact ih punctual
    | handshake own wrapped later ih => exact ih .clear
  cases deed with
  | idle alike unheard => rwa [alike.calls]
  | unwritten allowed down => exact (punctual.insert now _ _).forget _
  | issued valid allowed up => exact punctual.insert now _ _
  | left running up => exact .clear
  | gaveUp taken => exact punctual.cancel taken
  | @answered r id call calls taken plain =>
      have rest := punctual.takeForResponse now r.id
      rwa [taken] at rest
  | @shaken id n result call calls capabilities taken handshake usable =>
      have rest := punctual.takeForResponse now id
      rwa [taken] at rest
  | refused taken handshake fails => exact .clear
  | @stray r calls anomaly found missed unmatched =>
      have rest := punctual.takeForResponse now r.id
      rwa [missed] at rest
  | lapsed taken lapse =>
      refine lapses lapse ?_
      have rest := punctual.expire now
      rwa [taken] at rest
  | ceased running ending => exact .clear
  | _ => exact punctual

/-! ### What ends the wait -/

theorem Awaits.answered {id : Nat} {call : Call} (awaits : c.Awaits id call)
    (fits : Fitting c.state c.calls.calls) (now : Time) (outcome : Outcome) :
    (c.perform now (.item (.ok (.response ⟨.number id, outcome⟩)))).1.state = .initialized ∨
      (c.perform now (.item (.ok (.response ⟨.number id, outcome⟩)))).1.state = .exited := by
  have handshake := awaits.isHandshake fits
  have lookup : (c.calls.takeForResponse now (.number id)).1 = .outstanding id call := by
    rw [c.calls.takeForResponse_number now id, awaits.1]
  have deed := perform_deed c now (.item (.ok (.response ⟨.number id, outcome⟩)))
  unfold DeedOf at deed
  generalize c.perform now (.item (.ok (.response ⟨.number id, outcome⟩))) = turn at deed ⊢
  obtain ⟨d, out⟩ := turn
  cases deed with
  | idle alike unheard => exact absurd rfl (unheard _)
  | answered taken plain =>
      obtain ⟨-, rfl⟩ := Lookup.outstanding.inj (lookup.symm.trans (congrArg Prod.fst taken))
      cases handshake.symm.trans plain
  | shaken taken own usable => exact .inl rfl
  | refused taken own fails => exact .inr rfl
  | stray missed unmatched =>
      exact absurd ((congrArg Prod.fst missed).symm.trans lookup) (unmatched id call)

/-- When the handshake is due, the session ends. -/
theorem Awaits.expires {id : Nat} {call : Call} (awaits : c.Awaits id call)
    (fits : Fitting c.state c.calls.calls) (punctual : c.calls.Punctual)
    (due : CallTable.Due now call) : (c.step now .deadline).1.state = .exited := by
  have waiting := awaits.waiting fits
  have drawn : CallTable.Drawn now c.calls (c.calls.expire now).1 (c.calls.expire now).2 :=
    CallTable.expire_drawn rfl
  have lapse := timeOuts_lapse (c.calls.expire now).1 { c with calls := (c.calls.expire now).2 }
  have own : ∀ e ∈ (c.calls.expire now).1, e.2.method = Method.initializeRequest :=
    fun e held => (fits.awaits waiting (drawn.held e held).1).2
  rcases lapse.waiting waiting own with ⟨none, -⟩ | ended
  · rw [none] at drawn
    have kept : (c.calls.expire now).2.call? id = some call := by
      cases drawn with
      | nil next calls => rw [CallTable.call?, calls, ← CallTable.call?, awaits.1]
    exact absurd due (punctual.call?_expire.mp kept).2
  · exact ended

theorem step_ending {input : Input η} {reason : ExitReason} {failure : Failure}
    (ending : Ending input reason failure) (running : c.state ≠ .exited) (now : Time) :
    (c.step now input).1.state = .exited := by
  have open_ : ¬ c.state.isExited = true := by
    simpa only [Session.State.isExited, beq_iff_eq] using running
  have ended (reason : ExitReason) (failure : Failure) :
      (c.terminate reason failure).1.state = .exited := by
    rw [terminate_open running]
    rfl
  have lost (reason : String) : (c.lose reason).1.state = .exited := by
    rw [lose, if_neg open_]
    exact ended _ _
  have gone (status : ExitStatus) : (c.serverExit status).1.state = .exited := by
    rw [serverExit, if_neg open_]
    exact ended _ _
  cases ending with
  | close => exact ended _ _
  | abandoned => exact ended _ _
  | readEnded => exact lost _
  | readEndedBy status => exact gone status
  | readFailed reason => exact lost reason
  | serverExited status => exact gone status
  | transportEnded => exact lost _

/-! ### The wait in a run -/

/-- What a session waits for, and what it has done to the handshake. -/
structure Waiting (c : Connection η) (past : List (Moment η)) : Prop where
  sound : c.calls.Sound
  fits : Fitting c.state c.calls.calls
  punctual : c.calls.Punctual
  awaits : c.state = .initializing → (∃ id call, c.Awaits id call) ∨ ∃ m ∈ past, m.Withdraws
  forsaken : (∃ m ∈ past, m.Withdraws) →
    c.calls.calls = [] ∧ (c.state = .initializing ∨ c.state = .exited)

theorem fresh_waiting (config : ClientConfig) : Waiting (fresh config : Connection η) [] where
  sound := CallTable.fresh_sound _
  fits := fitting_nil _
  punctual := CallTable.fresh_punctual _
  awaits waiting := by cases waiting
  forsaken := by
    rintro ⟨m, held, -⟩
    cases held

theorem cancel_of_taken {id : Nat} {call : Call} {rest : CallTable}
    (taken : c.calls.cancel now id = some (call, rest)) :
    (c.cancel now (.number id)).2.1 = { c with calls := rest } := by
  have found : ((CallTable.number? (.number id)).bind fun n =>
      (c.calls.cancel now n).map fun r => (n, r.2)) = some (id, rest) := by
    have number : CallTable.number? (.number id) = some id := rfl
    rw [number, Option.bind_some, taken, Option.map_some]
  simp only [Connection.cancel, found]

/-- A handshake that is taken back leaves no call behind, and the session as it was. -/
theorem Moment.Withdraws.next {m : Moment η} (withdraws : m.Withdraws)
    (fits : Fitting m.before.state m.before.calls.calls) :
    m.next.calls.calls = [] ∧ m.next.state = .initializing := by
  obtain ⟨time, before, act⟩ := m
  obtain ⟨id, call, rfl, awaits⟩ := withdraws
  obtain ⟨rest, cancelled⟩ : ∃ rest, before.calls.cancel time id = some (call, rest) := by
    rw [CallTable.cancel, awaits.1]
    exact ⟨_, rfl⟩
  have next : (⟨time, before, .input (.command (.cancel (.number id)))⟩ : Moment η).next =
      { before with calls := rest } := cancel_of_taken cancelled
  rw [next]
  exact ⟨fits.alone (CallTable.cancel_taken cancelled) (awaits.isHandshake fits), awaits.waiting fits⟩

theorem Waiting.moment {m : Moment η} {past : List (Moment η)} (h : Waiting m.before past) :
    Waiting m.next (past ++ [m]) := by
  have deed := m.dealt
  have fits := h.fits.deed h.sound deed
  refine ⟨(deed_accounted h.sound deed).sound h.sound, fits, deed.punctual h.punctual,
    fun waiting => ?_, ?_⟩
  · rcases deed.waits h.fits waiting with (awaited | ⟨was, gone⟩) | withdraws
    · exact .inl awaited
    · obtain ⟨n, held, withdraws⟩ := (h.awaits was).resolve_left gone
      exact .inr ⟨n, List.mem_append_left _ held, withdraws⟩
    · exact .inr ⟨m, List.mem_append_right _ (List.mem_singleton_self m), withdraws⟩
  · rintro ⟨n, held, withdraws⟩
    rcases List.mem_append.mp held with before | here
    · obtain ⟨none, waiting | gone⟩ := h.forsaken ⟨n, before, withdraws⟩
      · obtain ⟨none, stays | ⟨ended, -⟩⟩ := deed.forsaken waiting none
        · exact ⟨none, .inl stays⟩
        · exact ⟨none, .inr ended⟩
      · have ended : m.next.state = .exited := (congrArg Session.state (deed.exited_stays gone)).trans gone
        exact ⟨fits.idle (.inr ended), .inr ended⟩
    · obtain rfl := List.mem_singleton.mp here
      obtain ⟨none, waiting⟩ := withdraws.next h.fits
      exact ⟨none, .inl waiting⟩

theorem after_waiting (config : ClientConfig) (history : List (Time × Input η)) :
    Waiting (after config history) (past config history) :=
  past_after (fresh_waiting config) fun _ _ _ held => held.moment

/-- An input that does not end sessions leaves one alone that waits for nothing. -/
theorem step_forsaken (waiting : c.state = .initializing) (none : c.calls.calls = []) {input : Input η}
    (stays : ¬ Leaving input) (now : Time) : (c.step now input).1.state = .initializing := by
  have deeds := step_deeds c now input
  have others : ∀ i, Act.input i ∈ c.acts input → ¬ Leaving i := by
    intro i act
    rwa [mem_acts act]
  generalize c.acts input = acts, (c.step now input).1 = d, (c.step now input).2 = out at deeds others
  induction deeds with
  | nil => exact waiting
  | @cons act acts c d e out later first rest ih =>
      obtain ⟨none, waiting | ⟨-, i, rfl, leaving⟩⟩ := first.forsaken waiting none
      · exact ih waiting none fun i act => others i (List.mem_cons_of_mem _ act)
      · exact absurd leaving (others i List.mem_cons_self)

/-- A session initializes while its handshake is outstanding, or since it was taken back. -/
structure HandshakeWait (config : ClientConfig) (history : List (Time × Input η)) : Prop where
  waits : (after config history).state = .initializing ↔
    (∃ id call, (after config history).Awaits id call) ∨
      (∃ m ∈ past config history, m.Withdraws) ∧ (after config history).state ≠ .exited
  answered : ∀ id call, (after config history).Awaits id call → ∀ now outcome,
    let next := ((after config history).perform now (.item (.ok (.response ⟨.number id, outcome⟩)))).1
    next.state = .initialized ∨ next.state = .exited
  /-- The deadline of the handshake is watched, and ends the session when it has come. -/
  expires : ∀ id call deadline, (after config history).Awaits id call → call.deadline = some deadline →
    (∃ first, (after config history).calls.nextDeadline.1 = some first ∧ first ≤ deadline) ∧
      ∀ now, deadline ≤ now → ((after config history).step now .deadline).1.state = .exited
  ends : (after config history).state = .initializing → ∀ now input reason failure,
    Ending input reason failure → ((after config history).step now input).1.state = .exited
  /-- When the handshake was taken back, nothing is outstanding that could end the session. -/
  forsaken : (∃ m ∈ past config history, m.Withdraws) →
    (after config history).calls.outstanding = [] ∧ ((after config history).state = .initializing →
      ∀ now input, ¬ Leaving input → ((after config history).step now input).1.state = .initializing)

theorem handshake_wait (config : ClientConfig) (history : List (Time × Input η)) :
    HandshakeWait config history := by
  have h := after_waiting config history
  refine ⟨⟨fun waiting => ?_, ?_⟩, fun id call awaits now outcome => awaits.answered h.fits now outcome,
    fun id call deadline awaits set => ⟨h.punctual.nextDeadline_le awaits.1 set, fun now due => ?_⟩,
    fun waiting now input reason failure ending => ?_, fun withdrawn => ⟨?_, fun waiting => ?_⟩⟩
  · rcases h.awaits waiting with awaited | withdrawn
    · exact .inl awaited
    · exact .inr ⟨withdrawn, by simp [waiting]⟩
  · rintro (⟨id, call, awaits⟩ | ⟨withdrawn, running⟩)
    · exact awaits.waiting h.fits
    · exact (h.forsaken withdrawn).2.resolve_right running
  · exact awaits.expires h.fits h.punctual ⟨deadline, set, due⟩
  · exact step_ending ending (by simp [waiting]) now
  · rw [CallTable.outstanding, (h.forsaken withdrawn).1]
    rfl
  · exact fun now input stays => step_forsaken waiting (h.forsaken withdrawn).1 stays now

/-- A handshake is sent and taken back. -/
def withdrawal : List (Time × Input Unit) :=
  [(0, .command (.request Method.initializeRequest none none)), (1, .command (.cancel (.number 1)))]

/-- The session goes on to initialize, and waits for nothing. -/
theorem handshake_forsaken : ¬ ∀ (config : ClientConfig) (history : List (Time × Input Unit)),
    (after config history).state = .initializing ↔ ∃ id call, (after config history).Awaits id call := by
  intro claim
  have waiting : (after .standard withdrawal).state = .initializing := by decide +kernel
  have none : (after .standard withdrawal).calls.calls = [] := by decide +kernel
  obtain ⟨id, call, held, -⟩ := (claim .standard withdrawal).mp waiting
  rw [CallTable.call?, none] at held
  cases held

end ServerProbe.Connection
