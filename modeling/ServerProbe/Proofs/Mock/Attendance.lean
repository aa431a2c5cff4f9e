import ServerProbe.Mock.World
import ServerProbe.Proofs.Connection.Conservation
/-!
Whose handler runs. In every world that can be reached, the handler that is driven is that of the
first server request that waits, and every request that arrived before it has its reply.
-/

namespace ServerProbe

open Connection (after Unfailing docket)

namespace Connection

variable {η : Type}

/-- An input other than the end of a handler only adds to the queue, unless the session ends. -/
theorem Deeds.queue {now : Time} {acts : List (Act η)} {c d : Connection η} {out : List (Output η)}
    (h : Deeds now acts c d out) (unfinished : ∀ how, .input (.finished how) ∉ acts) :
    (∃ more, d.queue = c.queue ++ more) ∨ c.state ≠ .exited ∧ d.state = .exited := by
  induction h with
  | nil => exact .inl ⟨[], (List.append_nil _).symm⟩
  | @cons act acts c d e out later first rest ih =>
      have others := ih fun how held => unfinished how (List.mem_cons_of_mem _ held)
      have here : (∃ more, d.queue = c.queue ++ more) ∨ c.state ≠ .exited ∧ d.state = .exited := by
        cases first.serves with
        | accepts own handled queue silent => exact .inl ⟨_, queue⟩
        | declines own unhandled queue said => exact .inl ⟨[], by rw [queue, List.append_nil]⟩
        | finishes own first queue said =>
            subst own
            exact absurd List.mem_cons_self (unfinished _)
        | passes other silent queue =>
            rcases queue with same | ⟨running, gone, -⟩
            · exact .inl ⟨[], by rw [same, List.append_nil]⟩
            · exact .inr ⟨running, gone⟩
      rcases here with ⟨more, queue⟩ | ⟨running, gone⟩
      · rcases others with ⟨further, grown⟩ | ⟨running, gone⟩
        · exact .inl ⟨more ++ further, by rw [grown, queue, List.append_assoc]⟩
        · refine .inr ⟨fun already => running ?_, gone⟩
          exact (congrArg Session.state (first.exited_stays already)).trans already
      · exact .inr ⟨running, (congrArg Session.state (rest.exited_stays gone)).trans gone⟩

theorem step_queue (c : Connection η) (now : Time) {input : Input η}
    (unfinished : ∀ how, input ≠ .finished how) :
    (∃ more, (c.step now input).1.queue = c.queue ++ more) ∨
      c.state ≠ .exited ∧ (c.step now input).1.state = .exited := by
  refine (step_deeds c now input).queue fun how held => ?_
  exact unfinished how (mem_acts held).symm

/-- A command leaves the queue as it is, or ends the session and empties it. -/
theorem command_queue (c : Connection η) (now : Time) (command : Command η) :
    (c.step now (.command command)).1.queue = c.queue ∨
      (c.step now (.command command)).1.queue = [] := by
  have deed : DeedOf now c (.input (.command command)) (c.step now (.command command)) :=
    step_deed fun bytes same => by cases same
  cases Deed.serves deed with
  | accepts own handled queue silent => cases own
  | declines own unhandled queue said => cases own
  | finishes own first queue said => cases own
  | passes other silent queue =>
      rcases queue with same | ceases
      · exact .inl same
      · exact .inr ceases.2.2

end Connection

namespace Mock.World

variable {ρ α : Type} {config : ClientConfig}

/-- A world that can be reached: routines are driven, what can happen happens, and everything but the
connection and its handler may change from elsewhere. -/
inductive Reached (config : ClientConfig) : World ρ → Prop
  | start (files : FileTree) : Reached config (fresh config files)
  | elsewhere {w w' : World ρ} (before : Reached config w) (connection : w'.connection = w.connection)
      (front : w'.front = w.front) : Reached config w'
  | driven {w : World ρ} {α : Type} (before : Reached config w) (r : Routine Handler α) :
      Reached config (w.drive r).1
  | happened {w : World ρ} (before : Reached config w) : Reached config w.event.2

/-- A later stage of a routine: some of its questions have been answered. -/
inductive Later (ρ : Type) (r : Routine Handler α) : Routine Handler α → Prop
  | same : Later ρ r r
  | answered {q : Question Handler} {next : q.Answer → Routine Handler α} (a : q.Answer)
      (before : Later ρ r (.ask q next)) : Later ρ r (next a)
  | slept {s : Routine Handler α} (w : World ρ) (before : Later ρ r s) : Later ρ r (w.suspend s)

theorem Later.trans {r s t : Routine Handler α} (first : Later ρ r s) (rest : Later ρ s t) :
    Later ρ r t := by
  induction rest with
  | same => exact first
  | answered a before ih => exact .answered a ih
  | slept w before ih => exact .slept w ih

/-! ### Turns -/

theorem foldl_take (out : List (Output Handler)) (w : World ρ) :
    (out.foldl take w).connection = w.connection ∧ (out.foldl take w).front = w.front := by
  induction out generalizing w with
  | nil => exact ⟨rfl, rfl⟩
  | cons o out ih =>
      obtain ⟨connection, front⟩ := ih (w.take o)
      rw [List.foldl_cons, connection, front]
      cases o <;> exact ⟨rfl, rfl⟩

theorem turn_connection (w : World ρ) (t : Turn Handler) : (w.turn t).connection = t.1 := by
  unfold turn
  dsimp only
  split
  · exact (foldl_take t.2 _).1
  · exact (foldl_take t.2 _).1

theorem turn_front (w : World ρ) (t : Turn Handler) :
    (w.turn t).front = if !w.connection.state.isExited && t.1.state.isExited then none else w.front := by
  by_cases ends : (!w.connection.state.isExited && t.1.state.isExited) = true
  · simp only [turn, ends, if_true]
  · simp only [turn, ends, Bool.false_eq_true, if_false]
    exact (foldl_take t.2 _).2

theorem input_connection (w : World ρ) (i : Input Handler) :
    (w.input i).connection = (w.connection.step w.now i).1 := turn_connection w _

/-! ### The handler that runs -/

/-- The handler that runs is at a stage of the first request in the queue, and the connection has come
about by a history. -/
structure Tended (config : ClientConfig) (w : World ρ) : Prop where
  led : ∃ history, w.connection = after config history
  front : ∀ r, w.front = some r → ∃ p rest, w.connection.queue = p :: rest ∧
    Later ρ (p.handler.run p.params) r

theorem Tended.elsewhere {w w' : World ρ} (h : Tended config w)
    (connection : w'.connection = w.connection) (front : w'.front = w.front) : Tended config w' := by
  refine ⟨?_, ?_⟩
  · rw [connection]
    exact h.led
  · rw [connection, front]
    exact h.front

theorem led_input {w : World ρ} (led : ∃ history, w.connection = after config history)
    (i : Input Handler) : ∃ history, (w.input i).connection = after config history := by
  obtain ⟨history, same⟩ := led
  exact ⟨history ++ [(w.now, i)], by rw [input_connection, Connection.after_snoc, same]⟩

theorem Tended.input {w : World ρ} (h : Tended config w) {i : Input Handler}
    (unfinished : ∀ how, i ≠ .finished how) : Tended config (w.input i) := by
  refine ⟨led_input h.led i, fun r runs => ?_⟩
  rw [World.input, turn_front] at runs
  split at runs
  · cases runs
  · rename_i goes_on
    obtain ⟨p, rest, queue, stage⟩ := h.front r runs
    rcases Connection.step_queue w.connection w.now unfinished with ⟨more, grown⟩ | ⟨running, gone⟩
    · refine ⟨p, rest ++ more, ?_, stage⟩
      rw [input_connection, grown, queue, List.cons_append]
    · -- The session has ended in this turn, and with it the handler was dropped.
      refine absurd ?_ goes_on
      simp only [Session.State.isExited, gone, beq_self_eq_true, Bool.and_true, Bool.not_eq_true',
        beq_eq_false_iff_ne]
      exact running

/-! ### Driving a routine -/

/-- To answer a question is to give a command to the connection, or leaves it as it is. -/
theorem answer_cases (w : World ρ) (q : Question Handler) :
    (∃ command, (w.answer q).1 = w.input (.command command)) ∨
      (w.answer q).1.connection = w.connection ∧ (w.answer q).1.front = w.front := by
  cases q with
  | command c =>
      by_cases stopped : w.stopped = true
      · have same : (w.answer (.command c)).1 = w := by
          simp only [answer, stopped, if_true]
        rw [same]
        exact .inr ⟨rfl, rfl⟩
      · refine .inl ⟨c, ?_⟩
        simp only [answer, stopped]
        rfl
  | writeFile path text =>
      refine .inr ?_
      simp only [answer]
      split <;> exact ⟨rfl, rfl⟩
  | makeDirectory path =>
      refine .inr ?_
      simp only [answer]
      split <;> exact ⟨rfl, rfl⟩
  | _ => exact .inr ⟨rfl, rfl⟩

/-- What commands keep, driving a routine keeps. -/
theorem drive_keeps {P : World ρ → Prop}
    (command : ∀ w command, P w → P (w.input (.command command)))
    (elsewhere : ∀ w w' : World ρ, w'.connection = w.connection → w'.front = w.front → P w → P w')
    (r : Routine Handler α) (w : World ρ) (held : P w) : P (w.drive r).1 := by
  induction r generalizing w with
  | done a => exact held
  | ask q next ih =>
      have asked : P (w.answer q).1 := by
        rcases answer_cases w q with ⟨c, same⟩ | ⟨connection, front⟩
        · rw [same]
          exact command w c held
        · exact elsewhere w _ connection front held
      unfold drive
      split
      · rename_i w' a answered
        rw [answered] at asked
        exact ih a w' asked
      · rename_i w' answered
        rw [answered] at asked
        exact asked

theorem drive_later (r : Routine Handler α) (w : World ρ) : Later ρ r (w.drive r).2 := by
  induction r generalizing w with
  | done a => exact .same
  | ask q next ih =>
      unfold drive
      split
      · rename_i w' a answered
        exact (Later.answered a .same).trans (ih a w')
      · exact .slept _ .same

theorem Tended.drive {w : World ρ} (h : Tended config w) (r : Routine Handler α) :
    Tended config (w.drive r).1 := by
  refine drive_keeps (P := Tended config) (fun w c held => ?_)
    (fun w w' connection front held => held.elsewhere connection front) r w h
  exact held.input fun how same => by cases same

theorem drive_queue (r : Routine Handler α) (w : World ρ) :
    (w.drive r).1.connection.queue = w.connection.queue ∨ (w.drive r).1.connection.queue = [] := by
  refine drive_keeps
    (P := fun w' => w'.connection.queue = w.connection.queue ∨ w'.connection.queue = []) ?_ ?_ r w
    (.inl rfl)
  · intro w' c held
    rw [input_connection]
    rcases Connection.command_queue w'.connection w'.now c with same | none
    · rwa [same]
    · exact .inr none
  · intro w' w'' connection _ held
    rwa [connection]

theorem Tended.frontRoutine {w : World ρ} (h : Tended config w) {r : Routine Handler HandlerEnd}
    (runs : w.frontRoutine? = some r) : ∃ p rest, w.connection.queue = p :: rest ∧
      Later ρ (p.handler.run p.params) r := by
  unfold frontRoutine? at runs
  cases front : w.front with
  | some s =>
      rw [front] at runs
      obtain rfl := Option.some.inj runs
      exact h.front s front
  | none =>
      rw [front] at runs
      obtain ⟨p, head, rfl⟩ := Option.map_eq_some_iff.mp runs
      obtain ⟨rest, queue⟩ := List.head?_eq_some_iff.mp head
      exact ⟨p, rest, queue, .same⟩

/-! ### What happens next -/

/-- The world once the handler that runs has been driven without finishing. -/
theorem Tended.waits {w : World ρ} (h : Tended config w) {r : Routine Handler HandlerEnd}
    (runs : w.frontRoutine? = some r) (waiting : (w.drive r).1.connection.queue ≠ []) :
    Tended config { (w.drive r).1 with front := some (w.drive r).2 } := by
  refine ⟨(h.drive r).led, fun s same => ?_⟩
  obtain rfl := Option.some.inj same
  obtain ⟨p, rest, queue, stage⟩ := h.frontRoutine runs
  have kept := (drive_queue r w).resolve_right waiting
  exact ⟨p, rest, kept.trans queue, stage.trans (drive_later r w)⟩

theorem Tended.finishes {w : World ρ} (h : Tended config w) (how : HandlerEnd) :
    Tended config ({ w with front := none }.input (.finished how)) := by
  refine ⟨led_input (w := { w with front := none }) h.led _, fun r runs => ?_⟩
  rw [World.input, turn_front] at runs
  split at runs <;> cases runs

/-- The world once nothing is left but what time brings. -/
theorem Tended.rests {w : World ρ} (h : Tended config w) :
    Tended config (if w.connection.calls.nextDeadline.1.any (· ≤ w.now) then (true, w.input .deadline)
      else if w.serverGone && !w.endSeen then
        (true, { w with endSeen := true }.input (.readEnded w.serverStatus))
      else (false, w)).2 := by
  split
  · exact h.input fun how same => by cases same
  · split
    · have seen : Tended config { w with endSeen := true } := h.elsewhere rfl rfl
      exact seen.input fun how same => by cases same
    · exact h

theorem Tended.event {w : World ρ} (h : Tended config w) : Tended config w.event.2 := by
  unfold World.event
  split
  · exact h
  · split
    · have ceased : Tended config (w.input .abandoned) := h.input fun how same => by cases same
      exact ceased.elsewhere rfl rfl
    · split
      · have read : Tended config { w with inbound := w.inbound.drop readSize } := h.elsewhere rfl rfl
        exact read.input fun how same => by cases same
      · split
        · rename_i w' how driven
          obtain ⟨r, -, same⟩ := Option.map_eq_some_iff.mp driven
          have driven := h.drive r
          rw [same] at driven
          exact driven.finishes how
        · refine Tended.rests ?_
          split
          · rename_i w' routine driven
            obtain ⟨r, runs, same⟩ := Option.map_eq_some_iff.mp driven
            have waits := h.waits runs
            have driven := h.drive r
            rw [same] at waits driven
            split
            · exact driven
            · rename_i waiting
              exact waits fun none => waiting (List.isEmpty_iff.mpr none)
          · exact h

theorem Reached.tended {w : World ρ} (h : w.Reached config) : Tended config w := by
  induction h with
  | start files => exact ⟨⟨[], rfl⟩, fun r runs => by cases runs⟩
  | elsewhere before connection front ih => exact ih.elsewhere connection front
  | driven before r ih => exact ih.drive r
  | happened before ih => exact ih.event

/-! ### Reaching -/

theorem Reached.resume {w : World ρ} (h : w.Reached config) (r : Running ρ) :
    (w.resume r).Reached config := by
  have driven := h.driven r.routine
  unfold World.resume
  split
  · rename_i same
    rw [same] at driven
    exact driven.elsewhere rfl rfl
  · rename_i same
    rw [same] at driven
    exact driven.elsewhere rfl rfl

theorem Reached.resumeAll {w : World ρ} (h : w.Reached config) : w.resumeAll.Reached config := by
  have all : ∀ (running : List (Running ρ)) (w : World ρ), w.Reached config →
      (running.foldl World.resume w).Reached config := by
    intro running
    induction running with
    | nil => exact fun _ reached => reached
    | cons r running ih => exact fun w reached => ih (w.resume r) (reached.resume r)
  exact all w.running _ (h.elsewhere rfl rfl)

theorem Reached.settle {w : World ρ} (h : w.Reached config) : w.settle.Reached config := by
  have rounds : ∀ (n : Nat) (w : World ρ), w.Reached config → (settleFor n w).Reached config := by
    intro n
    induction n with
    | zero => exact fun _ reached => reached
    | succ n ih =>
        intro w reached
        have next := reached.resumeAll.happened
        unfold settleFor
        split
        · rename_i w' happens
          rw [happens] at next
          exact ih w' next
        · rename_i w' rests
          rw [rests] at next
          exact next
  exact rounds _ w h

/-- Whatever happens while time passes, the world can be reached. -/
theorem Reached.pass {w : World ρ} (h : w.Reached config) (length : Span) :
    (w.pass length).Reached config := by
  have moments : ∀ (moment stop : Time) (w : World ρ), w.Reached config →
      (w.passFrom moment stop).Reached config := by
    intro moment stop w reached
    induction moment, w using passFrom.induct stop with
    | case1 moment w settled early ih =>
        have here : ({ w with now := moment } : World ρ).Reached config := reached.elsewhere rfl rfl
        have now : settled.Reached config := here.settle
        unfold passFrom
        rw [dif_pos early]
        exact ih now
    | case2 moment w late =>
        have here : ({ w with now := moment } : World ρ).Reached config := reached.elsewhere rfl rfl
        have now : (World.settle { w with now := moment }).Reached config := here.settle
        unfold passFrom
        rw [dif_neg late]
        exact now
  exact moments _ _ w h

/-! ### Conservation -/

/-- The handler that a world drives is that of the first request that waits. Every request that
arrived before it has been answered. -/
structure Attended (config : ClientConfig) (w : World ρ) : Prop where
  led : ∃ history, w.connection = after config history
  first : ∀ history, w.connection = after config history → w.connection.state ≠ .exited →
    Unfailing config history → ∀ r, w.frontRoutine? = some r →
    ∃ early k late handler, (docket config history).cases = early ++ k :: late ∧
      k.handler = some handler ∧ k.place = none ∧ Later ρ (handler.run k.request.params) r ∧
      ∀ e ∈ early, e.place.isSome

theorem Reached.attended {w : World ρ} (h : w.Reached config) : w.Attended config := by
  refine ⟨h.tended.led, fun history led running heard r runs => ?_⟩
  obtain ⟨p, rest, queue, stage⟩ := h.tended.frontRoutine runs
  rw [led] at running queue
  obtain ⟨waiting, declined⟩ := Connection.past_complete heard running
  obtain ⟨early, k, late, split, passed, waits, -⟩ :=
    List.filterMap_eq_cons_iff.mp (waiting.trans queue)
  obtain ⟨unanswered, handler, handled, rfl⟩ := Connection.Case.pending?_eq_some waits
  refine ⟨early, k, late, handler, split, handled, unanswered, stage, fun e held => ?_⟩
  have own : e ∈ (docket config history).cases := split ▸ List.mem_append_left _ held
  exact (Connection.Case.answered_iff (declined e own)).mpr (passed e held)

/-- Server requests are conserved over every history, and attended to in turn in every world. -/
theorem requests_conserved (config : ClientConfig) :
    (∀ (η : Type) (history : List (Time × Input η)), Connection.Conserved config history) ∧
      ∀ (ρ : Type) (w : World ρ), w.Reached config → w.Attended config :=
  ⟨fun _ history => Connection.conserved config history, fun _ _ reached => reached.attended⟩

/-- What a server writes to ask for a method. -/
def request (id : Int) (method : String) : Bytes :=
  Framing.frame (Utf8.encode (Rpc.Message.request ⟨.number id, method, none⟩).toJson.compact)

/-- Two requests with one id, one after them whose handler panics, one that nobody handles and one that
is left waiting. -/
def served : List (Time × Input Unit) :=
  [(0, .command (.onRequest "a" ())),
    (1, .received (request 1 "a" ++ request 1 "a" ++ request 2 "a" ++ request 3 "b" ++ request 4 "a")),
    (2, .finished (.returned (.ok (.int 7)))),
    (3, .finished (.returned (.error ⟨-1, "no", none⟩))),
    (4, .finished .panicked)]

/-- A client handles two methods and has been asked for both, and for a third one. -/
def asked : World Unit :=
  let attentive := ((World.fresh .standard (.fresh [])).drive do
    let _ ← Routine.question (.command (.onRequest "a"
      (Handler.request .null ⟨none, .whenCalled, .echo⟩)))
    Routine.question (.command (.onRequest "b"
      (Handler.request .null ⟨some (.ofMillis 5), .never, .echo⟩)))).1
  { attentive with inbound := request 1 "a" ++ request 2 "b" ++ request 3 "c" }

/-- The same once the first handler has panicked and the second one has begun. -/
def attending : World Unit := asked.event.2.event.2.event.2

theorem requests_conserved_asked :
    (Connection.Conserved .standard served ∧ (after .standard served).state ≠ .exited ∧
      Unfailing .standard served ∧
      (docket .standard served).cases.map Connection.Case.place =
        [some 1, some 2, some 3, some 0, none] ∧
      (docket .standard served).replies.map (fun r =>
          (r.id, (r.outcome.map Json.compact).mapError fun e => (e.code, e.message))) =
        [(.number 3, .error (-32601, "Method not found: b")), (.number 1, .ok "7"),
          (.number 1, .error (-1, "no")), (.number 2, .error (-32603, "handler for a panicked"))] ∧
      (after .standard served).queue.map Pending.id = [.number 4]) ∧
    attending.Reached .standard ∧ attending.front.isSome ∧
      attending.connection.queue.map Pending.id = [.number 2] ∧ attending.Attended .standard := by
  obtain ⟨conserved, attended⟩ := requests_conserved .standard
  have start : (World.fresh .standard (.fresh []) : World Unit).Reached .standard := .start _
  have begun : asked.Reached .standard := (start.driven _).elsewhere rfl rfl
  have reached : attending.Reached .standard := begun.happened.happened.happened
  refine ⟨⟨conserved Unit served, by decide +kernel⟩, reached, ?_⟩
  rw [← and_assoc]
  exact ⟨by decide +kernel, attended Unit attending reached⟩

end Mock.World
end ServerProbe
