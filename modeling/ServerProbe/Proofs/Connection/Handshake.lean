import ServerProbe.Proofs.Connection.Accounting
/-!
The handshake is the one call that can be outstanding while a session initializes, and no call is
outstanding before it or after the session has ended.
-/

namespace ServerProbe.Connection

open Rpc (Id Message Notification Outcome Request Response)

variable {η : Type}

/-- Which calls may be outstanding in a state. -/
structure Fitting (state : Session.State) (calls : List (Nat × Call)) : Prop where
  idle : state = .uninitialized ∨ state = .exited → calls = []
  single : state = .initializing → calls.length ≤ 1
  own : ∀ e ∈ calls, e.2.method = Method.initializeRequest ↔ state = .initializing

theorem Fitting.sublist {state : Session.State} {calls rest : List (Nat × Call)}
    (h : Fitting state calls) (sub : rest.Sublist calls) : Fitting state rest := by
  refine ⟨fun s => ?_, fun s => ?_, fun e held => h.own e (sub.subset held)⟩
  · have none := h.idle s
    subst none
    exact List.sublist_nil.mp sub
  · exact Nat.le_trans sub.length_le (h.single s)

theorem Fitting.of_perm {state : Session.State} {calls some others : List (Nat × Call)}
    (h : Fitting state calls) (split : calls.Perm (some ++ others)) : Fitting state some := by
  refine ⟨fun s => ?_, fun s => ?_, fun e held => ?_⟩
  · have none := h.idle s
    subst none
    exact (List.append_eq_nil_iff.mp split.symm.eq_nil).1
  · have short := h.single s
    have length := split.length_eq
    rw [List.length_append] at length
    omega
  · exact h.own e (split.symm.subset (List.mem_append_left _ held))

theorem fitting_nil (state : Session.State) : Fitting state [] :=
  ⟨fun _ => rfl, fun _ => Nat.zero_le 1, fun _ held => by cases held⟩

/-- A call that fits while the session initializes is the handshake. -/
theorem Fitting.isHandshake_iff {c : Connection η} (h : Fitting c.state c.calls.calls) {id : Nat}
    {call : Call} (held : c.calls.call? id = some call) :
    c.isHandshake call = true ↔ call.method = Method.initializeRequest := by
  have own := h.own _ (CallTable.mem_of_find? held)
  simp only [isHandshake, Bool.and_eq_true, beq_iff_eq]
  exact ⟨And.left, fun named => ⟨named, own.mp named⟩⟩

/-- The handshake leaves no other call behind. -/
theorem Fitting.alone {c : Connection η} {rest : CallTable} {id : Nat} {call : Call}
    (h : Fitting c.state c.calls.calls) (taken : c.calls.Taken id call rest)
    (handshake : c.isHandshake call = true) : rest.calls = [] := by
  have waiting : c.state = .initializing := eq_of_beq (Bool.and_eq_true_iff.mp handshake).2
  have held := CallTable.mem_of_find? taken.held
  have short := h.single waiting
  match same : c.calls.calls with
  | [] =>
      rw [same] at held
      cases held
  | [e] =>
      rw [same] at held
      obtain rfl := List.mem_singleton.mp held
      simp [taken.calls, same, CallTable.without]
  | _ :: _ :: _ =>
      rw [same] at short
      simp at short

theorem Lapse.fitting {c d : Connection η} {expired : List (Nat × Call)} {out : List (Output η)}
    (h : Lapse c expired d out) (fits : Fitting c.state c.calls.calls) :
    Fitting d.state d.calls.calls := by
  induction h with
  | nil => exact fits
  | plain other later ih => exact ih fits
  | handshake own wrapped later ih => exact ih (fitting_nil _)

/-- The method of a request that leads from one state to the next. -/
theorem requestAllowed_cases {state : Session.State} {method : String}
    (h : Session.requestAllowed state method = true) :
    state = .uninitialized ∧ method = Method.initializeRequest ∧
        Session.stateAfterRequest state method = some .initializing ∨
      state = .initialized ∧ method ≠ Method.initializeRequest ∧
        (Session.stateAfterRequest state method = none ∨
          Session.stateAfterRequest state method = some .shuttingDown) := by
  cases state with
  | uninitialized =>
      have named := eq_of_beq h
      exact .inl ⟨rfl, named, by simp [Session.stateAfterRequest, named]⟩
  | initialized =>
      refine .inr ⟨rfl, by simpa [Session.requestAllowed] using h, ?_⟩
      by_cases stops : method = Method.shutdown
      · exact .inr (by simp [Session.stateAfterRequest, stops])
      · exact .inl (by simp [Session.stateAfterRequest, stops])
  | initializing => cases h
  | shuttingDown => cases h
  | exited => cases h

theorem Fitting.deed {now : Time} {c d : Connection η} {act : Act η} {out : List (Output η)}
    (sound : c.calls.Sound) (fits : Fitting c.state c.calls.calls) (deed : Deed now c act d out) :
    Fitting d.state d.calls.calls := by
  cases deed with
  | idle alike unheard =>
      simp only [state, alike.session, alike.calls]
      exact fits
  | @unwritten method params timeout allowed down =>
      have same : ((c.registered now method timeout).forget c.calls.next).calls = c.calls.calls :=
        CallTable.forget_insert_calls sound now method _
      simp only [same]
      exact fits
  | @issued method params timeout valid allowed up =>
      have registered : (c.registered now method timeout).calls =
          (c.calls.next, ⟨method, timeout <|> c.defaultTimeout method,
            CallTable.deadlineAfter now (timeout <|> c.defaultTimeout method)⟩) :: c.calls.calls := rfl
      rcases requestAllowed_cases allowed with ⟨unready, named, moves⟩ | ⟨ready, other, moves⟩
      · have none := fits.idle (.inl unready)
        have waiting : (c.sessionAfter method).state = .initializing := by
          simp only [sessionAfter, moves, Option.getD_some]
        simp only [state, waiting, registered, none]
        refine ⟨fun s => ?_, fun _ => Nat.le_refl 1, fun e held => ?_⟩
        · rcases s with s | s <;> cases s
        · obtain rfl := List.mem_singleton.mp held
          simp only [named]
      · have running : (c.sessionAfter method).state = .initialized ∨
            (c.sessionAfter method).state = .shuttingDown := by
          rcases moves with stays | stops
          · exact .inl (by simp only [sessionAfter, stays, Option.getD_none]; exact ready)
          · exact .inr (by simp only [sessionAfter, stops, Option.getD_some])
        have plain : ∀ e ∈ c.calls.calls, e.2.method ≠ Method.initializeRequest := by
          intro e held named
          rw [(fits.own e held).mp named] at ready
          cases ready
        simp only [state, registered]
        refine ⟨fun s => ?_, fun s => ?_, fun e held => ?_⟩
        · rcases running with r | r <;> rw [r] at s <;> rcases s with s | s <;> cases s
        · rcases running with r | r <;> rw [r] at s <;> cases s
        · have not_waiting : (c.sessionAfter method).state ≠ .initializing := by
            rcases running with r | r <;> rw [r] <;> exact fun s => by cases s
          rcases List.mem_cons.mp held with rfl | earlier
          · exact iff_of_false other not_waiting
          · exact iff_of_false (plain e earlier) not_waiting
  | noted valid allowed up stays => exact fits
  | left running up => exact fitting_nil _
  | gaveUp taken => exact fits.sublist (CallTable.cancel_taken taken).within.calls
  | filed filing turn told => exact fits
  | answered taken plain =>
      exact fits.sublist (CallTable.takeForResponse_taken taken).2.within.calls
  | shaken taken handshake usable =>
      have none := fits.alone (CallTable.takeForResponse_taken taken).2 handshake
      simp only [none]
      exact fitting_nil _
  | refused taken handshake fails => exact fitting_nil _
  | stray missed unmatched =>
      obtain ⟨calls, -⟩ := CallTable.takeForResponse_unmatched missed unmatched
      simp only [calls]
      exact fits
  | malformed => exact fits
  | heard => exact fits
  | called handled => exact fits
  | declined unhandled => exact fits
  | finished first => exact fits
  | lapsed taken lapse =>
      exact lapse.fitting (fits.sublist (CallTable.expire_drawn taken).within.calls)
  | ceased running ending => exact fitting_nil _
  | shut gone => exact fits

theorem after_fitting (config : ClientConfig) (history : List (Time × Input η)) :
    Fitting (after config history).state (after config history).calls.calls := by
  refine (run_induction (P := fun c past => Balanced c past ∧ Fitting c.state c.calls.calls)
    ⟨fresh_balanced config, fitting_nil _⟩ ?_ history).2
  intro now c past act d out held deed
  exact ⟨held.1.deed deed, held.2.deed held.1.sound deed⟩

/-- Once a session has ended, no call is outstanding. -/
theorem outstanding_of_exited {config : ClientConfig} {history : List (Time × Input η)}
    (gone : (after config history).state = .exited) :
    (after config history).calls.outstanding = [] := by
  have none := (after_fitting config history).idle (.inr gone)
  simp only [CallTable.outstanding, none, List.map_nil, List.reverse_nil]

end ServerProbe.Connection
