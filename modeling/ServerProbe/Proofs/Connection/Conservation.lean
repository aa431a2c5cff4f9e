import ServerProbe.Proofs.Connection.Docket
/-!
Server requests are neither lost nor answered twice. As long as the session runs and every write
succeeds, a request that has arrived is answered or waits in the queue; once the session has ended,
nothing is replied any more.
-/

namespace ServerProbe.Connection

open Rpc (Request)

variable {η : Type}

/-- Under way: every request is answered or waits, as long as every write succeeds. -/
structure Complete (c : Connection η) (d : Docket η) : Prop where
  waiting : d.waiting = c.queue
  declined : ∀ k ∈ d.cases, k.handler = none → k.place.isSome

namespace Moment

variable {m : Moment η}

/-- Where a reply is due, it is written unless the write fails. -/
theorem up_of_request {r : Request} (heard : ¬ m.Stifled) (running : m.before.state ≠ .exited)
    (own : m.act = .item (.ok (.request r))) (unhandled : m.before.handlerFor r.method = none) :
    m.before.link = .up := by
  by_contra down
  refine heard ⟨down, ?_⟩
  have none : (({ m.before with link := .up } : Connection η).requestHandlers.find?
      fun h => h.1 == r.method).map Prod.snd = none := unhandled
  rw [own]
  simp only [perform, receive, receiveRequest, none]
  rw [reply_of_up (c := { m.before with link := .up }) running rfl]
  exact fun nothing => by cases nothing

theorem up_of_finished {p : Pending η} {rest : List (Pending η)} {how : HandlerEnd}
    (heard : ¬ m.Stifled) (running : m.before.state ≠ .exited)
    (own : m.act = .input (.finished how)) (first : m.before.queue = p :: rest) :
    m.before.link = .up := by
  by_contra down
  refine heard ⟨down, ?_⟩
  rw [own]
  simp only [perform, step, finish, first]
  rw [reply_of_up (c := { m.before with queue := rest, link := .up }) running rfl]
  exact fun nothing => by cases nothing

end Moment

theorem Complete.moment {m : Moment η} {ms : List (Moment η)} (heard : ¬ m.Stifled)
    (h : m.before.state ≠ .exited → Complete m.before (docketOf ms)) (running : m.next.state ≠ .exited) :
    Complete m.next (docketOf (ms ++ [m])) := by
  have before := Moment.before_running running
  obtain ⟨waiting, declined⟩ := h before
  cases m.dealt.serves with
  | @accepts r handler own handled queue silent =>
      have entered := (docketOf_snoc ms m).trans (Docket.enter_request _ own)
      rw [entered]
      refine ⟨?_, fun k held unhandled => ?_⟩
      · rw [Docket.waiting_snoc, queue, ← waiting, silent, handled]
        rfl
      · rcases List.mem_append.mp held with earlier | new
        · exact declined k earlier unhandled
        · rw [List.mem_singleton.mp new, handled] at unhandled
          cases unhandled
  | @declines r own unhandled queue said =>
      have up := Moment.up_of_request heard before own unhandled
      have entered := (docketOf_snoc ms m).trans (Docket.enter_request _ own)
      rw [delivered?, if_pos ⟨before, up⟩] at said
      rw [entered]
      refine ⟨?_, fun k held _ => ?_⟩
      · rw [Docket.waiting_snoc, queue, ← waiting, unhandled]
        exact List.append_nil _
      · rcases List.mem_append.mp held with earlier | new
        · exact declined k earlier ‹_›
        · rw [List.mem_singleton.mp new, said]
          rfl
  | @finishes p rest how own first queue said =>
      have up := Moment.up_of_finished heard before own first
      rw [delivered?, if_pos ⟨before, up⟩] at said
      have entered := (docketOf_snoc ms m).trans (Docket.enter_finished _ own said)
      rw [entered]
      refine ⟨?_, fun k held unhandled => ?_⟩
      · rw [queue]
        exact Docket.settle_waiting (waiting.trans first) how _
      · rcases Docket.mem_settle held with earlier | answered
        · exact declined k earlier unhandled
        · rw [answered]
          rfl
  | passes other silent queue =>
      have same : docketOf (ms ++ [m]) = docketOf ms := by
        rw [docketOf_snoc, Docket.enter_silent _ other silent]
      have kept := queue.resolve_right fun ends => running ends.2.1
      rw [same]
      exact ⟨waiting.trans kept.symm, declined⟩

theorem past_complete {config : ClientConfig} {history : List (Time × Input η)}
    (heard : Unfailing config history) (running : (after config history).state ≠ .exited) :
    Complete (after config history) (docket config history) := by
  refine past_after (P := fun c ms => c.state ≠ .exited → Complete c (docketOf ms)) ?_ ?_ running
  · exact fun _ => ⟨rfl, fun k none => by cases none⟩
  · exact fun m held ms h => Complete.moment (heard m held) h

/-! ### The conservation of requests -/

structure Conserved (config : ClientConfig) (history : List (Time × Input η)) : Prop
    extends Docketed config history where
  /-- A request is answered or waits, and those that wait are the queue, in order of arrival. -/
  divided : (after config history).state ≠ .exited → Unfailing config history →
    ∀ k ∈ (docket config history).cases, k.place.isSome ↔ k.pending? = none
  queued : (after config history).state ≠ .exited → Unfailing config history →
    (docket config history).waiting = (after config history).queue
  silent : ∀ m ∈ past config history, m.before.state = .exited → replies m.out = []

theorem Case.answered_iff {k : Case η} (declined : k.handler = none → k.place.isSome) :
    k.place.isSome ↔ k.pending? = none := by
  constructor
  · intro answered
    obtain ⟨n, place⟩ := Option.isSome_iff_exists.mp answered
    exact Case.pending?_of_place place
  · intro settled
    unfold Case.pending? at settled
    cases handled : k.handler with
    | none => exact declined handled
    | some handler =>
        cases place : k.place with
        | none =>
            rw [handled, place] at settled
            cases settled
        | some n => rfl

theorem replies_of_exited {m : Moment η} (gone : m.before.state = .exited) : replies m.out = [] := by
  have undelivered : ∀ r, m.before.delivered? r = [] := fun r => if_neg fun both => both.1 gone
  cases m.dealt.serves with
  | accepts own handled queue silent => exact silent
  | declines own unhandled queue said => exact said.trans (undelivered _)
  | finishes own first queue said => exact said.trans (undelivered _)
  | passes other silent queue => exact silent

theorem conserved (config : ClientConfig) (history : List (Time × Input η)) :
    Conserved config history := by
  refine { docketed config history with
    divided := fun running heard k held => ?_
    queued := fun running heard => (past_complete heard running).waiting
    silent := fun m _ gone => replies_of_exited gone }
  exact Case.answered_iff ((past_complete heard running).declined k held)

end ServerProbe.Connection
