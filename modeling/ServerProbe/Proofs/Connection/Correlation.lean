import Mathlib.Data.List.Induction
import ServerProbe.Framing.Stream
import ServerProbe.Proofs.Connection.Resolution
/-!
Requests and their answers over a whole history. An accepted request has an id of its own and is
resolved at most once; what resolves it is the first response with its id, its cancellation, its
deadline, or the end of the session, which leaves no request outstanding.
-/

namespace ServerProbe.Connection

open Rpc (Id Message Notification Outcome Request Response)

variable {η : Type}

structure Asked where
  time : Time
  method : String
  params : Option Json
  timeout : Option Span

def Asked.entry (a : Asked) : Time × Input η :=
  (a.time, .command (.request a.method a.params a.timeout))

/-- How long the response to a request is waited for. -/
def patience (c : Connection η) (a : Asked) : Option Span := a.timeout <|> c.defaultTimeout a.method

/-- The id of the request that an input makes, if it is accepted. -/
def acceptedId? (c : Connection η) (now : Time) : Input η → Option Nat
  | .command (.request method params timeout) => (c.sendRequest now method params timeout).1.toOption
  | _ => none

/-- The ids of the requests that are accepted in a history, in order of issue. -/
def acceptedIds (c : Connection η) : List (Time × Input η) → List Nat
  | [] => []
  | (now, input) :: history =>
    (c.acceptedId? now input).toList ++ acceptedIds (c.step now input).1 history

/-- What an input brings from the server. -/
def arrivals (c : Connection η) : Input η → List Framing.Decoded
  | .received bytes => (c.decoder.feed bytes).1
  | _ => []

def arrived (c : Connection η) : List (Time × Input η) → List Framing.Decoded
  | [] => []
  | (now, input) :: history => c.arrivals input ++ arrived (c.step now input).1 history

/-- No response to a call is among the items. -/
def Unanswered (id : Nat) (items : List Framing.Decoded) : Prop :=
  ∀ r, .ok (.response r) ∈ items → r.id ≠ .number id

theorem Unanswered.append {id : Nat} {a b : List Framing.Decoded} (ha : Unanswered id a)
    (hb : Unanswered id b) : Unanswered id (a ++ b) :=
  fun r held => (List.mem_append.mp held).elim (ha r) (hb r)

theorem arrived_append (c : Connection η) (before later : List (Time × Input η)) :
    c.arrived (before ++ later) = c.arrived before ++ (c.run before).1.arrived later := by
  induction before generalizing c with
  | nil => rfl
  | cons entry before ih =>
      obtain ⟨now, input⟩ := entry
      simp only [List.cons_append, arrived, run_cons, ih, List.append_assoc]

theorem after_append (config : ClientConfig) (before later : List (Time × Input η)) :
    after config (before ++ later) = ((after config before).run later).1 := by
  rw [after, run_append]
  rfl

theorem after_snoc (config : ClientConfig) (past : List (Time × Input η)) (now : Time)
    (input : Input η) :
    after config (past ++ [(now, input)]) = ((after config past).step now input).1 := by
  rw [after_append, run_cons, run_nil]

/-! ### Deeds one after the other -/

theorem Deeds.sound {now : Time} {acts : List (Act η)} {c d : Connection η} {out : List (Output η)}
    (h : Deeds now acts c d out) (sound : c.calls.Sound) : d.calls.Sound := by
  induction h with
  | nil => exact sound
  | cons first _ ih => exact ih ((deed_accounted sound first).sound sound)

theorem Deeds.fitting {now : Time} {acts : List (Act η)} {c d : Connection η} {out : List (Output η)}
    (h : Deeds now acts c d out) (sound : c.calls.Sound) (fits : Fitting c.state c.calls.calls) :
    Fitting d.state d.calls.calls := by
  induction h with
  | nil => exact fits
  | cons first _ ih => exact ih ((deed_accounted sound first).sound sound) (fits.deed sound first)

/-- A call that is resolved in the course of several deeds is resolved by one of them. -/
theorem Deeds.resolved {now : Time} {acts : List (Act η)} {c d : Connection η} {out : List (Output η)}
    {id : Nat} {answer : Answered} (h : Deeds now acts c d out)
    (shown : (id, answer) ∈ resolutions out) :
    ∃ early act late, acts = early ++ act :: late ∧ ∃ c' d' before here later,
      Deeds now early c c' before ∧ Deed now c' act d' here ∧ Deeds now late d' d later ∧
        (id, answer) ∈ resolutions here := by
  induction h with
  | nil => cases shown
  | @cons act acts c d e out rest first others ih =>
      rw [resolutions_append] at shown
      rcases List.mem_append.mp shown with now_shown | later_shown
      · exact ⟨[], act, acts, rfl, c, d, [], out, rest, .nil, first, others, now_shown⟩
      · obtain ⟨early, act', late, rfl, c', d', before, here, later, prior, deed, others, shown⟩ :=
          ih later_shown
        exact ⟨act :: early, act', late, rfl, c', d', out ++ before, here, later,
          .cons first prior, deed, others, shown⟩

/-- A call that is outstanding after a deed was so before, or is the one the deed issued. -/
theorem Accounted.outstanding {now : Time} {c d : Connection η} {act : Act η} {out : List (Output η)}
    {id : Nat} {call : Call} (h : Accounted now c act d out) (sound : c.calls.Sound)
    (held : d.calls.call? id = some call) :
    c.calls.call? id = some call ∨ ∃ method params timeout,
      act = .input (.command (.request method params timeout)) ∧
        requests out = [⟨.number id, method, params⟩] ∧
        call = ⟨method, timeout <|> c.defaultTimeout method,
          CallTable.deadlineAfter now (timeout <|> c.defaultTimeout method)⟩ := by
  cases h with
  | issued method params timeout command valid allowed up calls link wrote unresolved =>
      rw [calls] at held
      rcases List.mem_cons.mp (CallTable.mem_of_find? held) with same | earlier
      · obtain ⟨rfl, rfl⟩ := Prod.mk.inj same
        exact .inr ⟨method, params, timeout, command, wrote, rfl⟩
      · exact .inl (CallTable.find?_of_mem sound.distinct earlier)
  | settled calls resolved silent later steady =>
      exact .inl (CallTable.call?_of_sublist sound.distinct calls held)

/-- No call is outstanding any more that a response has come to. -/
theorem Deed.spent {now : Time} {c d : Connection η} {r : Response} {out : List (Output η)} {id : Nat}
    (deed : Deed now c (.item (.ok (.response r))) d out) (own : r.id = .number id) :
    d.calls.call? id = none := by
  have spends := CallTable.takeForResponse_spends c.calls now id
  rw [← own] at spends
  cases deed with
  | idle alike unheard => exact absurd rfl (unheard _)
  | answered taken plain => rwa [taken] at spends
  | shaken taken handshake usable => rwa [taken] at spends
  | refused taken handshake fails => rfl
  | stray missed unmatched => rwa [missed] at spends

/-- A call that is outstanding after bytes were received was so before, and no response to it was
among them. -/
theorem Deeds.outstanding {now : Time} {acts : List (Act η)} {c d : Connection η}
    {out : List (Output η)} {id : Nat} {call : Call} (h : Deeds now acts c d out)
    (sound : c.calls.Sound) (received : ∀ act ∈ acts, ∀ input, act ≠ .input input)
    (held : d.calls.call? id = some call) :
    c.calls.call? id = some call ∧ ∀ r, .item (.ok (.response r)) ∈ acts → r.id ≠ .number id := by
  induction h with
  | nil => exact ⟨held, fun r h => by cases h⟩
  | @cons act acts c d e out later first _ ih =>
      have accounted := deed_accounted sound first
      obtain ⟨here, others⟩ := ih (accounted.sound sound)
        (fun act held => received act (List.mem_cons_of_mem _ held)) held
      have kept : c.calls.call? id = some call := by
        rcases accounted.outstanding sound here with kept | ⟨method, params, timeout, command, -⟩
        · exact kept
        · exact absurd command (received act List.mem_cons_self _)
      refine ⟨kept, fun r response own => ?_⟩
      -- A response would have spent the call, and it is still there.
      rcases List.mem_cons.mp response with rfl | response
      · rw [first.spent own] at here
        cases here
      · exact others r response own

theorem Deeds.silent {now : Time} {acts : List (Act η)} {c d : Connection η} {out : List (Output η)}
    (h : Deeds now acts c d out) (sound : c.calls.Sound)
    (others : ∀ act ∈ acts, ∀ method params timeout,
      act ≠ .input (.command (.request method params timeout))) : requests out = [] := by
  induction h with
  | nil => rfl
  | @cons act acts c d e out later first _ ih =>
      have accounted := deed_accounted sound first
      have rest := ih (accounted.sound sound) fun act held => others act (List.mem_cons_of_mem _ held)
      rw [requests_append, rest, List.append_nil]
      cases accounted with
      | issued method params timeout command =>
          exact absurd command (others act List.mem_cons_self _ _ _)
      | settled calls resolved silent => exact silent

/-! ### The acts of an input -/

theorem received_ne_input {c : Connection η} {bytes : Bytes} {act : Act η}
    (h : act ∈ c.acts (.received bytes)) (other : Input η) : act ≠ .input other := by
  rintro rfl
  rcases List.mem_cons.mp h with same | item
  · cases same
  · obtain ⟨item, -, same⟩ := List.mem_map.mp item
    cases same

theorem mem_acts {c : Connection η} {input other : Input η} (h : .input other ∈ c.acts input) :
    other = input := by
  by_cases bytes : ∃ bytes, input = .received bytes
  · obtain ⟨bytes, rfl⟩ := bytes
    exact absurd rfl (received_ne_input h other)
  · rw [c.acts_single fun b same => bytes ⟨b, same⟩] at h
    exact Act.input.inj (List.mem_singleton.mp h)

/-- Only the last act of an input can be other than a part of what was received. -/
theorem acts_early {c : Connection η} {input : Input η} {early late : List (Act η)} {act : Act η}
    (h : c.acts input = early ++ act :: late) : ∀ a ∈ early, ∀ other, a ≠ .input other := by
  intro a held
  by_cases bytes : ∃ bytes, input = .received bytes
  · obtain ⟨bytes, rfl⟩ := bytes
    have there : a ∈ c.acts (.received bytes) := h ▸ List.mem_append_left _ held
    exact received_ne_input there
  · rw [c.acts_single fun b same => bytes ⟨b, same⟩] at h
    obtain ⟨rfl, -⟩ := List.append_eq_singleton_iff.mp h.symm |>.resolve_right fun ends => by
      cases ends.2
    cases held

/-- The items before one that is taken in have been taken in before it. -/
theorem acts_item {c : Connection η} {input : Input η} {early late : List (Act η)}
    {item : Framing.Decoded} (h : c.acts input = early ++ .item item :: late) :
    ∃ before later, c.arrivals input = before ++ item :: later ∧ ∀ i ∈ before, .item i ∈ early := by
  by_cases bytes : ∃ bytes, input = .received bytes
  · obtain ⟨bytes, rfl⟩ := bytes
    cases early with
    | nil => cases h
    | cons first early =>
        obtain ⟨-, h⟩ := List.cons.inj h
        obtain ⟨before, others, split, rfl, tail⟩ := List.map_eq_append_iff.mp h
        obtain ⟨same, later, rfl, own, rfl⟩ := List.map_eq_cons_iff.mp tail
        obtain rfl := Act.item.inj own
        refine ⟨before, later, split, fun i held => List.mem_cons_of_mem _ ?_⟩
        exact List.mem_map_of_mem held
  · rw [c.acts_single fun b same => bytes ⟨b, same⟩] at h
    have there : Act.item item ∈ [Act.input input] := h ▸ List.mem_append_right _ List.mem_cons_self
    cases List.mem_singleton.mp there

/-! ### Accepted requests -/

theorem number_inj {a b : Nat} (h : Id.number a = .number b) : a = b :=
  Int.ofNat.inj (Id.number.inj h)

theorem requests_sendRequest (c : Connection η) (now : Time) (method : String) (params : Option Json)
    (timeout : Option Span) :
    (requests (c.sendRequest now method params timeout).2.2).map Request.id =
      (c.sendRequest now method params timeout).1.toOption.toList.map fun k : Nat => Id.number k := by
  unfold sendRequest
  split
  · rfl
  · rfl
  · split
    split
    · rfl
    · rename_i out written
      obtain ⟨-, rfl⟩ := write_eq_ok written
      split <;> simp [Output.request?, Except.toOption]

/-- A step writes a request exactly if it accepts one, under the id it gives out. -/
theorem requests_step {c : Connection η} (sound : c.calls.Sound) (now : Time) (input : Input η) :
    (requests (c.step now input).2).map Request.id =
      (c.acceptedId? now input).toList.map fun k : Nat => Id.number k := by
  by_cases asks : ∃ method params timeout, input = .command (.request method params timeout)
  · obtain ⟨method, params, timeout, rfl⟩ := asks
    exact requests_sendRequest c now method params timeout
  · have silent : requests (c.step now input).2 = [] := by
      refine (step_deeds c now input).silent sound ?_
      intro act held method params timeout same
      exact asks ⟨method, params, timeout, (mem_acts (same ▸ held)).symm⟩
    have refused : c.acceptedId? now input = none := by
      unfold acceptedId?
      split
      · exact absurd ⟨_, _, _, rfl⟩ asks
      · rfl
    rw [silent, refused]
    rfl

theorem requests_run {c : Connection η} (sound : c.calls.Sound) (history : List (Time × Input η)) :
    (requests (c.run history).2).map Request.id =
      (c.acceptedIds history).map fun k : Nat => Id.number k := by
  induction history generalizing c with
  | nil => rfl
  | cons entry history ih =>
      obtain ⟨now, input⟩ := entry
      rw [run_cons, requests_append, List.map_append, requests_step sound,
        ih ((step_deeds c now input).sound sound), acceptedIds, List.map_append]

/-- A call that is outstanding after a step was so before, and no response to it arrived, or it is that
of the request which was accepted. -/
theorem step_outstanding {c : Connection η} (sound : c.calls.Sound) {now : Time} {input : Input η}
    {id : Nat} {call : Call} (held : (c.step now input).1.calls.call? id = some call) :
    c.calls.call? id = some call ∧ Unanswered id (c.arrivals input) ∨
      ∃ asked : Asked, (now, input) = asked.entry ∧ c.acceptedId? now input = some id ∧
        call = ⟨asked.method, c.patience asked, CallTable.deadlineAfter now (c.patience asked)⟩ := by
  by_cases bytes : ∃ bytes, input = .received bytes
  · obtain ⟨bytes, rfl⟩ := bytes
    obtain ⟨kept, others⟩ := (step_deeds c now (.received bytes)).outstanding sound
      (fun act there => received_ne_input there) held
    refine .inl ⟨kept, fun r response => others r ?_⟩
    exact List.mem_cons_of_mem _ (List.mem_map_of_mem response)
  · have single : ∀ bytes, input ≠ .received bytes := fun b same => bytes ⟨b, same⟩
    have nothing : c.arrivals input = [] := by
      cases input with
      | received b => exact absurd rfl (single b)
      | _ => rfl
    have deed : DeedOf now c (.input input) (c.step now input) := step_deed single
    have accounted := deed_accounted sound deed
    rcases accounted.outstanding sound held with kept | ⟨method, params, timeout, command, wrote, rfl⟩
    · refine .inl ⟨kept, fun r response => ?_⟩
      rw [nothing] at response
      cases response
    · obtain rfl := Act.input.inj command
      refine .inr ⟨⟨now, method, params, timeout⟩, rfl, ?_, rfl⟩
      have numbers := requests_step sound now (.command (.request method params timeout))
      rw [wrote] at numbers
      cases accepted : c.acceptedId? now (.command (.request method params timeout)) with
      | none =>
          rw [accepted] at numbers
          cases numbers
      | some k =>
          rw [accepted] at numbers
          rw [number_inj (List.singleton_inj.mp numbers)]

/-- Where an outstanding call was requested. Since then no response to it has come. -/
structure Requested (config : ClientConfig) (past : List (Time × Input η)) (id : Nat) (call : Call)
    (before : List (Time × Input η)) (asked : Asked) (between : List (Time × Input η)) : Prop where
  split : past = before ++ asked.entry :: between
  accepted : (after config before).acceptedId? asked.time asked.entry.2 = some id
  call : call = ⟨asked.method, (after config before).patience asked,
    CallTable.deadlineAfter asked.time ((after config before).patience asked)⟩
  unanswered : Unanswered id ((after config (before ++ [asked.entry])).arrived between)

theorem requested_of_outstanding (config : ClientConfig) (past : List (Time × Input η)) {id : Nat}
    {call : Call} (held : (after config past).calls.call? id = some call) :
    ∃ before asked between, Requested config past id call before asked between := by
  induction past using List.reverseRecOn with
  | nil => cases held
  | append_singleton past entry ih =>
      obtain ⟨now, input⟩ := entry
      rw [after_snoc] at held
      rcases step_outstanding (after_sound config past) held with
        ⟨kept, unanswered⟩ | ⟨asked, same, accepted, call⟩
      · obtain ⟨before, asked, between, requested⟩ := ih kept
        have there : after config (before ++ [asked.entry] ++ between) = after config past := by
          rw [requested.split, List.append_assoc, List.singleton_append]
        refine ⟨before, asked, between ++ [(now, input)], ?_, requested.accepted, requested.call, ?_⟩
        · rw [requested.split, List.append_assoc, List.cons_append]
        · rw [arrived_append, ← after_append, there, arrived, arrived, List.append_nil]
          exact requested.unanswered.append unanswered
      · obtain ⟨rfl, rfl⟩ := Prod.mk.inj same
        exact ⟨past, asked, [], rfl, accepted, call, fun r response => by cases response⟩

/-! ### Causes -/

section Causes

variable (config : ClientConfig) (before : List (Time × Input η)) (asked : Asked)
  (between : List (Time × Input η)) (now : Time) (input : Input η) (id : Nat)

/-- Why an input resolves a request, and with what. The request was made after one part of the history,
under the id, and the input comes after another. -/
inductive Cause : Answered → Prop
  | responded (r : Response) (early late : List Framing.Decoded)
      (items : (after config (before ++ asked.entry :: between)).arrivals input =
        early ++ .ok (.response r) :: late)
      (own : r.id = .number id)
      (first : Unanswered id ((after config (before ++ [asked.entry])).arrived between ++ early)) :
      Cause (delivered asked.method r.outcome)
  | cancelled (command : input = .command (.cancel (.number id))) :
      Cause (.error (.cancelled (.number id)))
  | timedOut (span : Span) (tick : input = .deadline)
      (waited : (after config before).patience asked = some span)
      (due : asked.time + span.nanos ≤ now) :
      Cause (.error (wrapped asked.method (.timeout asked.method (.number id) span)))
  | ended (reason : ExitReason) (failure : Failure)
      (running : (after config (before ++ asked.entry :: between)).state ≠ .exited)
      (ceased : (after config (before ++ asked.entry :: between ++ [(now, input)])).state = .exited)
      (recorded : (after config (before ++ asked.entry :: between ++ [(now, input)])).session.reason =
        some reason)
      (fails : FailsWith reason failure) : Cause (.error failure)

end Causes

/-- What resolves a call in a step is the cause of its resolution. -/
theorem step_cause (config : ClientConfig) (past : List (Time × Input η)) {now : Time}
    {input : Input η} {id : Nat} {answer : Answered}
    (shown : (id, answer) ∈ resolutions ((after config past).step now input).2) :
    ∃ before asked between, past = before ++ asked.entry :: between ∧
      (after config before).acceptedId? asked.time asked.entry.2 = some id ∧
      Cause config before asked between now input id answer := by
  have sound := after_sound config past
  -- The input is taken apart at the act that resolves the call: what came before it is a part of what
  -- was received, so the call is still the one that was requested.
  obtain ⟨early, act, late, split, c, d, prior, here, later, first, deed, last, shown⟩ :=
    (step_deeds (after config past) now input).resolved shown
  have there : act ∈ (after config past).acts input := split ▸ List.mem_append_right _ List.mem_cons_self
  obtain ⟨call, found, cause⟩ :=
    deed.cause (first.sound sound) (first.fitting sound (after_fitting config past)) shown
  obtain ⟨held, unanswered⟩ := first.outstanding sound (acts_early split) found
  obtain ⟨before, asked, between, requested⟩ := requested_of_outstanding config past held
  refine ⟨before, asked, between, requested.split, requested.accepted, ?_⟩
  have whole := requested.split
  have own : call.method = asked.method := congrArg Call.method requested.call
  cases cause with
  | responded r item number =>
      subst item
      obtain ⟨already, coming, items, taken⟩ := acts_item split
      rw [whole] at items
      rw [own]
      refine .responded r already coming items number (requested.unanswered.append fun s response => ?_)
      exact unanswered s (taken _ response)
  | cancelled command => exact .cancelled (mem_acts (command ▸ there)).symm
  | timedOut tick due =>
      obtain ⟨deadline, set, passed⟩ := due
      rw [requested.call] at set
      obtain ⟨span, waited, ends⟩ := Option.bind_eq_some_iff.mp set
      have span_eq : call.timeout.getD .zero = span := by
        rw [requested.call, waited, Option.getD_some]
      rw [own, lateness, own, span_eq]
      refine .timedOut span (mem_acts (tick ▸ there)).symm waited ?_
      split at ends
      · rw [Option.some.inj ends]
        exact passed
      · cases ends
  | ended reason failure running ceased recorded fails =>
      have kept := last.exited_stays ceased
      refine .ended reason failure (fun gone => running ?_) ?_ ?_ fails
      · rw [← whole] at gone
        exact (congrArg Session.state (first.exited_stays gone)).trans gone
      · rw [← whole, after_snoc]
        exact (congrArg Session.state kept).trans ceased
      · rw [← whole, after_snoc, kept]
        exact recorded

theorem mem_run {o : Output η} {c : Connection η} {history : List (Time × Input η)}
    (h : o ∈ (c.run history).2) : ∃ past now input rest, history = past ++ (now, input) :: rest ∧
      o ∈ ((c.run past).1.step now input).2 := by
  induction history generalizing c with
  | nil => cases h
  | cons entry history ih =>
      obtain ⟨now, input⟩ := entry
      rw [run_cons] at h
      rcases List.mem_append.mp h with first | later
      · exact ⟨[], now, input, history, rfl, first⟩
      · obtain ⟨past, then', other, rest, rfl, shown⟩ := ih later
        exact ⟨(now, input) :: past, then', other, rest, rfl, shown⟩

/-! ### Correlation -/

/-- Each accepted request is answered once, and for a cause. -/
structure Correlated (config : ClientConfig) (history : List (Time × Input η)) : Prop where
  /-- The ids of accepted requests count up from one. -/
  numbered : ∃ n, (fresh config).acceptedIds history = List.range' 1 n
  /-- The requests that reach the server are the accepted ones, in order of issue. -/
  written : (requests (outputs config history)).map Request.id =
    ((fresh config).acceptedIds history).map fun k : Nat => Id.number k
  /-- An accepted request is outstanding or has been resolved, once and not both. -/
  accounted : (resolvedIds (outputs config history) ++ (after config history).calls.outstanding).Perm
    ((fresh config).acceptedIds history)
  once : (resolvedIds (outputs config history)).Nodup
  caused : ∀ id answer, .resolved id answer ∈ outputs config history →
    ∃ before asked between now input rest,
      history = before ++ asked.entry :: between ++ (now, input) :: rest ∧
      (after config before).acceptedId? asked.time asked.entry.2 = some id ∧
      Cause config before asked between now input id answer
  drained : (after config history).state = .exited →
    (after config history).calls.outstanding = []

theorem correlated (config : ClientConfig) (history : List (Time × Input η)) :
    Correlated config history := by
  obtain ⟨n, written, whole, -⟩ := (run_balanced config history).numbered
  have sent : (requests (outputs config history)).map Request.id =
      ((fresh config).acceptedIds history).map fun k : Nat => Id.number k :=
    requests_run (CallTable.fresh_sound _) history
  have numbered : (fresh config).acceptedIds history = List.range' 1 n :=
    (List.map_inj_right fun _ _ => number_inj).mp (sent.symm.trans written)
  refine ⟨⟨n, numbered⟩, sent, ?_, ?_, ?_, outstanding_of_exited⟩
  · rw [numbered, CallTable.outstanding_eq]
    exact ((List.reverse_perm _).append_left _).trans whole
  · have distinct := whole.nodup_iff.mpr List.nodup_range'
    exact distinct.sublist (List.sublist_append_left _ _)
  · intro id answer shown
    obtain ⟨past, now, input, rest, rfl, here⟩ := mem_run shown
    obtain ⟨before, asked, between, rfl, accepted, cause⟩ :=
      step_cause config past (mem_resolutions.mpr here)
    exact ⟨before, asked, between, now, input, rest, rfl, accepted, cause⟩

/-- The handshake is answered, but not with capabilities. -/
def unusable : List (Time × Input Unit) :=
  [(0, .command (.request Method.initializeRequest none none)),
    (1, .received (Framing.frame (Utf8.encode "\x7b\"jsonrpc\":\"2.0\",\"id\":1,\"result\":\x7b\x7d\x7d")))]

/-- A request for which no timeout is given is not answered. -/
def overdue : List (Time × Input Unit) :=
  [(0, .command (.request Method.initializeRequest none none)),
    (1, .received (Framing.frame (Utf8.encode
      "\x7b\"jsonrpc\":\"2.0\",\"id\":1,\"result\":\x7b\"capabilities\":\x7b\x7d\x7d\x7d"))),
    (2, .command (.request "workspace/symbol" none none)),
    (5000000002, .deadline)]

def rejection? : List (Nat × Answered) → Option (Nat × Int × String)
  | [(id, .error (.initializeFailed (.refused ⟨code, message, none⟩)))] => some (id, code, message)
  | _ => none

def lapse? : List (Nat × Answered) → Option (Nat × String × Id × Span)
  | [_, (id, .error (.timeout method own span))] => some (id, method, own, span)
  | _ => none

theorem rejection?_eq_some {resolved : List (Nat × Answered)} {id : Nat} {code : Int} {message : String}
    (h : rejection? resolved = some (id, code, message)) :
    (id, .error (.initializeFailed (.refused ⟨code, message, none⟩))) ∈ resolved := by
  unfold rejection? at h
  split at h
  · obtain ⟨rfl, rfl, rfl⟩ := by simpa using h
    exact List.mem_cons_self
  · cases h

theorem lapse?_eq_some {resolved : List (Nat × Answered)} {id : Nat} {method : String} {own : Id}
    {span : Span} (h : lapse? resolved = some (id, method, own, span)) :
    (id, .error (.timeout method own span)) ∈ resolved := by
  unfold lapse? at h
  split at h
  · obtain ⟨rfl, rfl, rfl, rfl⟩ := by simpa using h
    exact List.mem_cons_of_mem _ List.mem_cons_self
  · cases h

theorem correlated_by_default :
    (∃ before asked between now input rest,
      unusable = before ++ asked.entry :: between ++ (now, input) :: rest ∧
      Cause .standard before asked between now input 1 (.error (.initializeFailed
        (.refused ⟨-32600, "initialize result has no `capabilities`", none⟩)))) ∧
    ∃ before asked between now input rest,
      overdue = before ++ asked.entry :: between ++ (now, input) :: rest ∧
      Cause .standard before asked between now input 2
        (.error (.timeout "workspace/symbol" (.number 2) (.ofSeconds 5))) := by
  have rejected : rejection? (resolutions (outputs .standard unusable)) =
      some (1, -32600, "initialize result has no `capabilities`") := by decide +kernel
  have lapsed : lapse? (resolutions (outputs .standard overdue)) =
      some (2, "workspace/symbol", .number 2, .ofSeconds 5) := by decide +kernel
  obtain ⟨before, asked, between, now, input, rest, split, -, cause⟩ :=
    (correlated .standard unusable).caused 1 _ (mem_resolutions.mp (rejection?_eq_some rejected))
  refine ⟨⟨before, asked, between, now, input, rest, split, cause⟩, ?_⟩
  obtain ⟨before, asked, between, now, input, rest, split, -, cause⟩ :=
    (correlated .standard overdue).caused 2 _ (mem_resolutions.mp (lapse?_eq_some lapsed))
  exact ⟨before, asked, between, now, input, rest, split, cause⟩

end ServerProbe.Connection
