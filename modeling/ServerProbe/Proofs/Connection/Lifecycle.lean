import Mathlib.Data.List.Chain
import ServerProbe.Framing.Stream
import ServerProbe.Proofs.Connection.Provenance
import ServerProbe.Proofs.Session.Negotiation
/-!
The life of a session over a whole history: the states it passes through, what is known in each of
them and where it comes from, why the session ended, and what was published of all that.
-/

namespace ServerProbe.Connection

open Rpc (Id Message Notification Outcome Request Response)

variable {η : Type}

/-! ### States entered -/

/-- The states that events tell of. -/
def changes (events : List Event) : List Session.State :=
  events.filterMap fun
    | .stateChanged s => some s
    | _ => none

/-- The states that a session enters in a history. -/
def entered (c : Connection η) : List (Time × Input η) → List Session.State
  | [] => []
  | (now, input) :: history =>
    let d := (c.step now input).1
    (if d.state = c.state then [] else [d.state]) ++ d.entered history

theorem changes_append (a b : List Event) : changes (a ++ b) = changes a ++ changes b :=
  List.filterMap_append

theorem Anomalous.changes {events : List Event} (h : Anomalous events) :
    Connection.changes events = [] := by
  refine List.filterMap_eq_nil_iff.mpr fun e held => ?_
  obtain ⟨anomaly, rfl⟩ := h e held
  rfl

theorem Announces.changes {news : List Event} {out : List (Output η)} (h : Announces news out) :
    Connection.changes (events out) = Connection.changes news := by
  obtain ⟨before, later, split, quiet, still⟩ := h
  rw [split, changes_append, changes_append, quiet.changes, still.changes, List.nil_append,
    List.append_nil]

/-- An act enters at most one state, along a passage, and publishes it. -/
theorem Passes.changes {c d : Connection η} {act : Act η} {out : List (Output η)}
    (h : Passes c act d out) :
    d.state = c.state ∧ Connection.changes (events out) = [] ∨
      Session.Passage c.state d.state ∧ Connection.changes (events out) = [d.state] := by
  cases h with
  | stays session told => exact .inl ⟨congrArg Session.state session, told.changes⟩
  | starts asked was session told =>
      have state : d.state = .initializing := congrArg Session.state session
      rw [was, state]
      exact .inr ⟨.start, told.changes⟩
  | settles capabilities was session told given =>
      have state : d.state = .initialized := congrArg Session.state session
      rw [was, state]
      exact .inr ⟨.establish, told.changes⟩
  | stops asked was session told =>
      have state : d.state = .shuttingDown := congrArg Session.state session
      rw [was, state]
      exact .inr ⟨.stop, told.changes⟩
  | ends reason running session told warrant =>
      have state : d.state = .exited := congrArg Session.state session
      rw [state]
      exact .inr ⟨.finish running, told.changes⟩

theorem changes_run {c : Connection η} (sound : c.calls.Sound) (history : List (Time × Input η)) :
    changes (events (c.run history).2) = c.entered history := by
  induction history generalizing c with
  | nil => rfl
  | cons entry history ih =>
      obtain ⟨now, input⟩ := entry
      rw [run_cons, events_append, changes_append, ih ((step_deeds c now input).sound sound), entered]
      rcases (step_passes sound now input).changes with ⟨stays, silent⟩ | ⟨passage, told⟩
      · rw [silent, if_pos stays]
      · rw [told, if_neg passage.ne]

theorem entered_chain {c : Connection η} (sound : c.calls.Sound) (history : List (Time × Input η)) :
    (c.state :: c.entered history).IsChain Session.Passage := by
  induction history generalizing c with
  | nil => exact .singleton _
  | cons entry history ih =>
      obtain ⟨now, input⟩ := entry
      have rest := ih ((step_deeds c now input).sound sound)
      rw [entered]
      rcases (step_passes sound now input).changes with ⟨stays, -⟩ | ⟨passage, -⟩
      · rw [if_pos stays, List.nil_append, ← stays]
        exact rest
      · rw [if_neg passage.ne, List.singleton_append]
        exact .cons_cons passage rest

/-! ### What a session knows -/

/-- The capabilities are known from the handshake on, and the reason once the session is over. -/
structure Informed (s : Session) : Prop where
  blank : s.state = .uninitialized ∨ s.state = .initializing → s.capabilities = none
  known : s.state = .initialized ∨ s.state = .shuttingDown → ∃ caps, s.capabilities = some caps
  ceased : (∃ reason, s.reason = some reason) ↔ s.state = .exited

theorem fresh_informed : Informed Session.fresh := by
  refine ⟨fun _ => rfl, fun s => ?_, ?_⟩
  · rcases s with s | s <;> cases s
  · refine ⟨fun given => ?_, fun s => by cases s⟩
    obtain ⟨reason, given⟩ := given
    cases given

theorem Informed.reason_eq_none {s : Session} (h : Informed s) (running : s.state ≠ .exited) :
    s.reason = none := by
  cases given : s.reason with
  | none => rfl
  | some reason => exact absurd (h.ceased.mp ⟨reason, given⟩) running

theorem Informed.running {s : Session} {state : Session.State} {capabilities : Option Capabilities}
    (h : Informed s) (was : s.state ≠ .exited) (running : state ≠ .exited)
    (blank : state = .uninitialized ∨ state = .initializing → capabilities = none)
    (known : state = .initialized ∨ state = .shuttingDown → ∃ caps, capabilities = some caps) :
    Informed { s with state, capabilities } := by
  refine ⟨blank, known, fun given => ?_, fun gone => absurd gone running⟩
  exact absurd (h.ceased.mp given) was

theorem Passes.informed {c d : Connection η} {act : Act η} {out : List (Output η)}
    (h : Passes c act d out) (informed : Informed c.session) : Informed d.session := by
  cases h with
  | stays session told => rwa [session]
  | starts asked was session told =>
      have running : c.session.state ≠ .exited := fun gone => by cases was.symm.trans gone
      rw [session]
      refine informed.running running (fun gone => by cases gone) (fun _ => informed.blank (.inl was)) ?_
      rintro (s | s) <;> cases s
  | settles capabilities was session told given =>
      have running : c.session.state ≠ .exited := fun gone => by cases was.symm.trans gone
      rw [session]
      refine informed.running running (fun gone => by cases gone) ?_ fun _ => ⟨_, rfl⟩
      rintro (s | s) <;> cases s
  | stops asked was session told =>
      have running : c.session.state ≠ .exited := fun gone => by cases was.symm.trans gone
      rw [session]
      refine informed.running running (fun gone => by cases gone) ?_ fun _ => informed.known (.inl was)
      rintro (s | s) <;> cases s
  | ends reason running session told warrant =>
      rw [session]
      refine ⟨?_, ?_, ⟨fun _ => rfl, fun _ => ⟨reason, rfl⟩⟩⟩
      · rintro (s | s) <;> cases s
      · rintro (s | s) <;> cases s

/-- Capabilities stay what they are. -/
theorem Passes.capabilities {c d : Connection η} {act : Act η} {out : List (Output η)}
    (h : Passes c act d out) (informed : Informed c.session) {capabilities : Capabilities}
    (known : c.session.capabilities = some capabilities) :
    d.session.capabilities = some capabilities := by
  cases h with
  | settles others was session told given =>
      rw [informed.blank (.inr was)] at known
      cases known
  | stays session told => rwa [session]
  | starts asked was session told => rwa [session]
  | stops asked was session told => rwa [session]
  | ends reason running session told warrant => rwa [session]

/-! ### The end in the events -/

/-- The end of a session is published once, with its reason, and right after the state. -/
def Heralded (s : Session) (told : List Event) : Prop :=
  match s.reason with
  | none => ∀ reason, .exited reason ∉ told
  | some reason => ∃ before later, told = before ++ .stateChanged .exited :: .exited reason :: later ∧
      ∀ other, .exited other ∉ before ++ later

theorem Anomalous.exited_not_mem {told : List Event} (h : Anomalous told) (reason : ExitReason) :
    .exited reason ∉ told := by
  intro held
  obtain ⟨anomaly, same⟩ := h _ held
  cases same

theorem Heralded.running {s t : Session} {told : List Event} {news : List Event}
    {out : List (Output η)} (h : Heralded s told) (announces : Announces news out)
    (here : s.reason = none) (there : t.reason = none) (other : ∀ reason, .exited reason ∉ news) :
    Heralded t (told ++ events out) := by
  obtain ⟨before, later, split, quiet, still⟩ := announces
  simp only [Heralded, here, there] at h ⊢
  intro reason held
  rw [split] at held
  simp only [List.mem_append] at held
  rcases held with past | (early | new) | late
  · exact h reason past
  · exact quiet.exited_not_mem reason early
  · exact other reason new
  · exact still.exited_not_mem reason late

theorem Passes.heralded {c d : Connection η} {act : Act η} {out : List (Output η)}
    {told : List Event} (h : Passes c act d out) (informed : Informed c.session)
    (heralded : Heralded c.session told) : Heralded d.session (told ++ events out) := by
  cases h with
  | stays session announces =>
      rw [session]
      cases given : c.session.reason with
      | none => exact heralded.running announces given given fun _ held => by cases held
      | some reason =>
          simp only [Heralded, given] at heralded ⊢
          obtain ⟨before, later, split, once⟩ := heralded
          refine ⟨before, later ++ events out, ?_, fun other held => ?_⟩
          · rw [split, List.append_assoc, List.cons_append, List.cons_append]
          · rw [← List.append_assoc] at held
            rcases List.mem_append.mp held with past | new
            · exact once other past
            · exact announces.anomalous.exited_not_mem other new
  | starts asked was session announces =>
      have none := informed.reason_eq_none fun gone => by cases was.symm.trans gone
      exact heralded.running announces none (session ▸ none) (by simp)
  | settles capabilities was session announces given =>
      have none := informed.reason_eq_none fun gone => by cases was.symm.trans gone
      exact heralded.running announces none (session ▸ none) (by simp)
  | stops asked was session announces =>
      have none := informed.reason_eq_none fun gone => by cases was.symm.trans gone
      exact heralded.running announces none (session ▸ none) (by simp)
  | ends reason running session announces warrant =>
      have none := informed.reason_eq_none running
      have recorded : d.session.reason = some reason := congrArg Session.reason session
      -- Nothing told of an end before, since there was no reason then.
      obtain ⟨early, late, split, quiet, still⟩ := announces
      simp only [Heralded, none, recorded] at heralded ⊢
      refine ⟨told ++ early, late, by simp [split], fun other held => ?_⟩
      rcases List.mem_append.mp held with past | new
      · rcases List.mem_append.mp past with past | new
        · exact heralded other past
        · exact quiet.exited_not_mem other new
      · exact still.exited_not_mem other new

/-- What holds of a session and the events published so far. -/
theorem after_heralded (config : ClientConfig) (history : List (Time × Input η)) :
    Informed (after config history).session ∧
      Heralded (after config history).session (events (outputs config history)) := by
  have start : Informed (fresh config : Connection η).session ∧
      Heralded (fresh config : Connection η).session (events ([] : List (Output η))) :=
    ⟨fresh_informed, fun _ held => by cases held⟩
  refine run_induction (P := fun c past => Informed c.session ∧ Heralded c.session (events past))
    start ?_ history
  intro now c past act d out held deed
  refine ⟨deed.passes.informed held.1, ?_⟩
  rw [events_append]
  exact deed.passes.heralded held.1 held.2

theorem run_exited_stays {c : Connection η} (gone : c.state = .exited)
    (later : List (Time × Input η)) : (c.run later).1.session = c.session := by
  refine run_preserves (P := fun d => d.session = c.session) rfl ?_ later
  intro now d act e out same deed
  exact (deed.exited_stays ((congrArg Session.state same).trans gone)).trans same

theorem run_capabilities {c : Connection η} (informed : Informed c.session)
    {capabilities : Capabilities} (known : c.session.capabilities = some capabilities)
    (later : List (Time × Input η)) : (c.run later).1.session.capabilities = some capabilities := by
  refine (run_preserves (P := fun d => Informed d.session ∧
    d.session.capabilities = some capabilities) ⟨informed, known⟩ ?_ later).2
  intro now d act e out held deed
  exact ⟨deed.passes.informed held.1, deed.passes.capabilities held.1 held.2⟩

/-! ### Why a session ends -/

section Entitlement

variable (config : ClientConfig) (before : List (Time × Input η)) (now : Time) (input : Input η)

/-- What entitles an input to end the session, by reason. -/
inductive Entitled : ExitReason → Prop
  | handshake (why : String) (waiting : (after config before).state = .initializing) :
      Entitled (.initializeFailed why)
  | acknowledged (params : Option Json) (value : Json)
      (command : input = .command (.notify Method.exit params))
      (sent : .wrote (.notification ⟨Method.exit, params⟩) ∈ ((after config before).step now input).2)
      (answered : Obtained (outputs config before) Method.shutdown value) : Entitled .graceful
  | unacknowledged (params : Option Json) (command : input = .command (.notify Method.exit params))
      (sent : .wrote (.notification ⟨Method.exit, params⟩) ∈ ((after config before).step now input).2)
      (unanswered : ∀ value, ¬ Obtained (outputs config before) Method.shutdown value) :
      Entitled (.forced "exit sent without a shutdown response")
  | quit (reason : ExitReason) (failure : Failure) (ending : Ending input reason failure) :
      Entitled reason

end Entitlement

theorem Warrant.entitled {config : ClientConfig} {before : List (Time × Input η)} {now : Time}
    {input : Input η} {reason : ExitReason}
    (h : Warrant (after config before) ((after config before).step now input).2 (.input input) reason) :
    Entitled config before now input reason := by
  have witnessed := (after_witnessed config before).acknowledged
  cases h with
  | handshake waiting => exact .handshake _ waiting
  | @left params sent =>
      by_cases answered : (after config before).acknowledged = true
      · obtain ⟨value, obtained⟩ := witnessed.mp answered
        have graceful : (after config before).exitReason = .graceful := if_pos answered
        rw [graceful]
        exact .acknowledged params value rfl sent obtained
      · have forced : (after config before).exitReason =
            .forced "exit sent without a shutdown response" := if_neg answered
        rw [forced]
        exact .unacknowledged params rfl sent fun value obtained =>
          answered (witnessed.mpr ⟨value, obtained⟩)
  | quit ending => exact .quit _ _ ending

/-- The input with which a session ended. -/
theorem reason_recorded (config : ClientConfig) (history : List (Time × Input η)) {reason : ExitReason}
    (recorded : (after config history).session.reason = some reason) :
    ∃ before now input rest, history = before ++ (now, input) :: rest ∧
      (after config before).state ≠ .exited ∧ (after config (before ++ [(now, input)])).state = .exited ∧
      Entitled config before now input reason := by
  induction history using List.reverseRecOn with
  | nil => cases recorded
  | append_singleton past entry ih =>
      obtain ⟨now, input⟩ := entry
      have informed := (after_heralded config past).1
      have passes := step_passes (after_sound config past) now input
      rw [after_snoc] at recorded
      -- The session ended earlier, or ends with this input: no other passage sets a reason.
      by_cases gone : (after config past).state = .exited
      · have same : ((after config past).step now input).1.session = (after config past).session :=
          (step_deeds _ now input).exited_stays gone
        rw [same] at recorded
        obtain ⟨before, then', other, rest, rfl, running, ceased, entitled⟩ := ih recorded
        refine ⟨before, then', other, rest ++ [(now, input)], ?_, running, ceased, entitled⟩
        rw [List.append_assoc, List.cons_append]
      · have none := informed.reason_eq_none gone
        cases passes with
        | stays session told =>
            rw [session, none] at recorded
            cases recorded
        | starts asked was session told =>
            rw [session] at recorded
            cases none.symm.trans recorded
        | settles capabilities was session told given =>
            rw [session] at recorded
            cases none.symm.trans recorded
        | stops asked was session told =>
            rw [session] at recorded
            cases none.symm.trans recorded
        | ends other running session told warrant =>
            rw [session] at recorded
            obtain rfl := Option.some.inj recorded
            refine ⟨past, now, input, [], rfl, gone, ?_, warrant.entitled⟩
            rw [after_snoc]
            exact congrArg Session.state session

/-! ### Lifecycle -/

/-- What a session goes through in a history, and what is published of it. -/
structure Lifecycle (config : ClientConfig) (history : List (Time × Input η)) : Prop where
  /-- The states are entered along passages, from the first one on. -/
  passages : (.uninitialized :: (fresh config).entered history).IsChain Session.Passage
  absorbed : (after config history).state = .exited → ∀ later,
    (after config (history ++ later)).session = (after config history).session
  /-- A reason is there exactly when the session is over. -/
  ceased : (∃ reason, (after config history).session.reason = some reason) ↔
    (after config history).state = .exited
  blank : (after config history).state = .uninitialized ∨ (after config history).state = .initializing →
    (after config history).session.capabilities = none
  known : (after config history).state = .initialized ∨ (after config history).state = .shuttingDown →
    ∃ capabilities, (after config history).session.capabilities = some capabilities
  /-- The capabilities are those that the result advertises which the handshake was answered with. -/
  negotiated : ∀ capabilities, (after config history).session.capabilities = some capabilities →
    ∃ result, Obtained (outputs config history) Method.initializeRequest result ∧
      capabilities.AdvertisedIn result
  frozen : ∀ capabilities, (after config history).session.capabilities = some capabilities →
    ∀ later, (after config (history ++ later)).session.capabilities = some capabilities
  entitled : ∀ reason, (after config history).session.reason = some reason →
    ∃ before now input rest, history = before ++ (now, input) :: rest ∧
      (after config before).state ≠ .exited ∧ (after config (before ++ [(now, input)])).state = .exited ∧
      Entitled config before now input reason
  /-- The states that are published are those entered. -/
  published : changes (events (outputs config history)) = (fresh config).entered history
  /-- The end is published once, with the reason and right after the state. -/
  heralded : ∀ reason, (after config history).session.reason = some reason →
    ∃ before later,
      events (outputs config history) = before ++ .stateChanged .exited :: .exited reason :: later ∧
      ∀ other, .exited other ∉ before ++ later
  unheralded : (after config history).state ≠ .exited →
    ∀ reason, .exited reason ∉ events (outputs config history)

theorem lifecycle (config : ClientConfig) (history : List (Time × Input η)) :
    Lifecycle config history := by
  obtain ⟨informed, heralded⟩ := after_heralded config history
  have sound : (fresh config : Connection η).calls.Sound := CallTable.fresh_sound _
  exact
    { passages := entered_chain sound history
      absorbed := fun gone later => by
        rw [after_append]
        exact run_exited_stays gone later
      ceased := informed.ceased
      blank := informed.blank
      known := informed.known
      negotiated := fun capabilities known => by
        obtain ⟨result, obtained, read⟩ :=
          (after_witnessed config history).negotiated capabilities known
        exact ⟨result, obtained, Capabilities.ofResult_eq_ok.mp read⟩
      frozen := fun capabilities known later => by
        rw [after_append]
        exact run_capabilities informed known later
      entitled := fun reason recorded => reason_recorded config history recorded
      published := changes_run sound history
      heralded := fun reason recorded => by
        simpa only [Heralded, recorded] using heralded
      unheralded := fun running => by
        simpa only [Heralded, informed.reason_eq_none running] using heralded }

/-- A result of the handshake in which a server names itself. -/
def introduction : Json :=
  .ofMembers [("capabilities", .ofMembers [("hoverProvider", .bool true)]),
    ("serverInfo", .ofMembers [("name", .str "pyrefly"), ("version", .str "0.40.0")])]

/-- A server names itself and what it can do, answers the request to shut down, and is told to exit. -/
def concluded : List (Time × Input Unit) :=
  let answer (id : Int) (result : Json) :=
    Framing.frame (Utf8.encode (Message.response ⟨.number id, .ok result⟩).toJson.compact)
  [(0, .command (.request Method.initializeRequest none none)),
    (1, .received (answer 1 introduction)),
    (2, .command (.request Method.shutdown none none)),
    (3, .received (answer 2 .null)),
    (4, .command (.notify Method.exit none))]

theorem lifecycle_concluded : ∃ capabilities,
    (after .standard concluded).session.capabilities = some capabilities ∧
      capabilities.advertised.compact = "\x7b\"hoverProvider\":true\x7d" ∧
      capabilities.server = some ⟨"pyrefly", some "0.40.0"⟩ ∧
      (∃ result, Obtained (outputs .standard concluded) Method.initializeRequest result ∧
        capabilities.AdvertisedIn result) ∧
      changes (events (outputs .standard concluded)) =
        [.initializing, .initialized, .shuttingDown, .exited] ∧
      ∃ before now input, (now, input) ∈ concluded ∧
        Entitled .standard before now input .graceful := by
  have lived := lifecycle .standard concluded
  obtain ⟨stored, through, recorded⟩ : (after .standard concluded).session.capabilities.map
        (fun caps => (caps.advertised.compact, caps.server)) =
          some ("\x7b\"hoverProvider\":true\x7d", some ⟨"pyrefly", some "0.40.0"⟩) ∧
      (fresh .standard).entered concluded = [.initializing, .initialized, .shuttingDown, .exited] ∧
      (after .standard concluded).session.reason = some .graceful := by decide +kernel
  obtain ⟨capabilities, known, shown⟩ := Option.map_eq_some_iff.mp stored
  obtain ⟨before, now, input, rest, split, -, -, entitled⟩ := lived.entitled .graceful recorded
  have among : (now, input) ∈ concluded := split ▸ List.mem_append_cons_self
  exact ⟨capabilities, known, congrArg Prod.fst shown, congrArg Prod.snd shown,
    lived.negotiated capabilities known, lived.published.trans through,
    before, now, input, among, entitled⟩

end ServerProbe.Connection
