import ServerProbe.Framing.Stream
import ServerProbe.Proofs.Connection.Stopping
/-!
Calls that are given up, because the client cancels them or because their time is over. As long as no
write fails and the client does not write such notices itself, the server is told of each of them once,
after it has been sent the request, and of no other call.
-/

namespace ServerProbe.Connection

open Rpc (Id Message Outcome Response)

variable {η : Type}

/-! ### Notices -/

/-- The notices among the outputs that a call is of no more interest. -/
def recallsIn (out : List (Output η)) : List Message :=
  (sent out).filter (Message.tells Method.cancelRequest)

theorem recallsIn_of_silent {out : List (Output η)} (silent : sent out = []) : recallsIn out = [] := by
  rw [recallsIn, silent, List.filter_nil]

theorem recallNotice_tells (id : Nat) : (recallNotice id).tells Method.cancelRequest = true :=
  beq_self_eq_true Method.cancelRequest

/-- What gives calls up: the client's cancellations, and the passing of time. -/
def Act.givesUp : Act η → Bool
  | .input (.command (.cancel _)) | .input .deadline => true
  | _ => false

/-- The answer to a call that is given up. That of the handshake says that it has failed. -/
inductive GivenUp (id : Nat) : Answered → Prop
  | cancelled : GivenUp id (.error (.cancelled (.number id)))
  | late (call : Call) : GivenUp id (.error (lateness id call))
  | lateHandshake (call : Call) : GivenUp id (.error (.initializeFailed (lateness id call)))

/-- The calls that the outputs resolve are given up, and the server is told of each. -/
structure AllRecalled (out : List (Output η)) : Prop where
  told : recallsIn out = (resolvedIds out).map recallNotice
  answers : ∀ id answer, (id, answer) ∈ resolutions out → GivenUp id answer

theorem allRecalled_nil : AllRecalled ([] : List (Output η)) :=
  ⟨rfl, fun _ _ shown => by cases shown⟩

theorem allRecalled_closing (c : Connection η) : AllRecalled c.closing := by
  refine ⟨?_, fun id answer shown => ?_⟩
  · rw [recallsIn_of_silent (sent_closing c), (closing_quiet c).resolvedIds, List.map_nil]
  · rw [(closing_quiet c).resolutions] at shown
    cases shown

/-- While a call is outstanding, the session allows notices. -/
theorem recall_allowed {state : Session.State} {calls : List (Nat × Call)} (fits : Fitting state calls)
    (some : calls ≠ []) : Session.notificationAllowed state Method.cancelRequest = true := by
  cases state with
  | uninitialized => exact absurd (fits.idle (.inl rfl)) some
  | exited => exact absurd (fits.idle (.inr rfl)) some
  | _ => decide

theorem cancel_allowed {state : Session.State} {t rest : CallTable} {now : Time} {n : Nat} {call : Call}
    (fits : Fitting state t.calls) (taken : t.cancel now n = some (call, rest)) :
    Session.notificationAllowed state Method.cancelRequest = true :=
  recall_allowed fits (List.ne_nil_of_mem (CallTable.mem_of_find? (CallTable.cancel_taken taken).held))

theorem Fitting.expire {state : Session.State} {t rest : CallTable} {now : Time}
    {expired : List (Nat × Call)} (fits : Fitting state t.calls) (sound : t.Sound)
    (taken : t.expire now = (expired, rest)) : Fitting state (expired ++ rest.calls) := by
  have split := (CallTable.expire_drawn taken).perm sound
  rw [← List.append_nil (expired ++ rest.calls)] at split
  exact fits.of_perm split

theorem cancelNotice_recall {c : Connection η} (up : c.link = .up)
    (allowed : Session.notificationAllowed c.state Method.cancelRequest = true) (id : Nat) :
    c.cancelNotice id = [.wrote (recallNotice id)] := by
  rw [cancelNotice_of_up up, if_pos allowed]
  rfl

theorem recallsIn_wrote (id : Nat) (out : List (Output η)) :
    recallsIn (.wrote (recallNotice id) :: out) = recallNotice id :: recallsIn out := by
  rw [recallsIn, sent_cons]
  exact List.filter_cons_of_pos (recallNotice_tells id)

theorem recallsIn_resolved (id : Nat) (answer : Answered) (out : List (Output η)) :
    recallsIn (.resolved id answer :: out) = recallsIn out := rfl

theorem AllRecalled.late {out : List (Output η)} (rest : AllRecalled out) {id : Nat} {answer : Answered}
    (given : GivenUp id answer) :
    AllRecalled (.wrote (recallNotice id) :: .resolved id answer :: out) := by
  refine ⟨?_, fun n other shown => ?_⟩
  · rw [recallsIn_wrote, recallsIn_resolved, rest.told]
    rfl
  · rcases List.mem_cons.mp shown with same | later
    · obtain ⟨rfl, rfl⟩ := Prod.mk.inj same
      exact given
    · exact rest.answers n other later

theorem allRecalled_cancelled (id : Nat) : AllRecalled
    [(.resolved id (.error (.cancelled (.number id))) : Output η), .wrote (recallNotice id)] := by
  refine ⟨?_, fun n other shown => ?_⟩
  · rw [recallsIn_resolved, recallsIn_wrote]
    rfl
  · obtain ⟨rfl, rfl⟩ := Prod.mk.inj (List.mem_singleton.mp shown)
    exact .cancelled

/-- The server is told of each call that lapses. When it is the handshake that does, no other call is
outstanding which the end of the session would resolve. -/
theorem Lapse.allRecalled {c d : Connection η} {expired : List (Nat × Call)} {out : List (Output η)}
    (h : Lapse c expired d out) (fits : Fitting c.state (expired ++ c.calls.calls)) (up : c.link = .up) :
    AllRecalled out := by
  induction h with
  | nil => exact allRecalled_nil
  | plain other later ih =>
      have allowed := recall_allowed fits (List.cons_ne_nil _ _)
      rw [cancelNotice_recall up allowed]
      exact (ih (fits.sublist (List.sublist_cons_self _ _)) up).late (.late _)
  | @handshake c d id call rest out failure own wrapped later ih =>
      have allowed := recall_allowed fits (List.cons_ne_nil _ _)
      have waiting : c.state = .initializing := eq_of_beq (Bool.and_eq_true_iff.mp own).2
      have alone := fits.single waiting
      rw [List.cons_append, List.length_cons, List.length_append] at alone
      have none : c.calls.calls = [] := List.eq_nil_of_length_eq_zero (by omega)
      obtain rfl : rest = [] := List.eq_nil_of_length_eq_zero (by omega)
      cases later
      have silent : AllRecalled (c.farewell (.initializeFailed failure.message)
          (.transportClosed "initialize failed")) := by
        refine ⟨?_, fun n answer shown => ?_⟩
        · rw [recallsIn_of_silent (sent_farewell c _ _), resolvedIds_farewell, CallTable.ids, none]
          rfl
        · have held := (mem_resolutions_farewell shown).1
          rw [CallTable.ids, none] at held
          cases held
      rw [cancelNotice_recall up allowed, List.append_nil, wrapped]
      rw [wrapped] at silent
      exact silent.late (.lateHandshake call)

theorem Lapse.resolves {c d : Connection η} {expired : List (Nat × Call)} {out : List (Output η)}
    (h : Lapse c expired d out) (some : expired ≠ []) : resolvedIds out ≠ [] := by
  intro none
  cases h with
  | nil => exact some rfl
  | plain other later =>
      rw [resolvedIds_append, resolvedIds_resolved] at none
      cases (List.append_eq_nil_iff.mp none).2
  | handshake own wrapped later =>
      rw [List.append_assoc, resolvedIds_append, List.cons_append, resolvedIds_resolved] at none
      cases (List.append_eq_nil_iff.mp none).2

theorem Act.givesUp_cases {act : Act η} (gives : act.givesUp = true) :
    (∃ id, act = .input (.command (.cancel id))) ∨ act = .input .deadline := by
  unfold Act.givesUp at gives
  split at gives
  · exact .inl ⟨_, rfl⟩
  · exact .inr rfl
  · cases gives

/-! ### Moments -/

namespace Moment

variable {m : Moment η} {past : List (Output η)}

/-- Where a notice is due, it is written unless the write fails. -/
theorem up_of_cancelled (heard : ¬ m.Stifled) (fits : Fitting m.before.state m.before.calls.calls)
    {n : Nat} {call : Call} {calls : CallTable} (own : m.act = .input (.command (.cancel (.number n))))
    (taken : m.before.calls.cancel m.time n = some (call, calls)) : m.before.link = .up := by
  by_contra down
  refine heard ⟨down, ?_⟩
  rw [own]
  have turn : ({ m.before with link := .up } : Connection η).perform m.time
      (.input (.command (.cancel (.number n)))) = ({ m.before with calls, link := .up },
        .resolved n (.error (.cancelled (.number n))) ::
          ({ m.before with calls, link := .up } : Connection η).cancelNotice n) := by
    simp only [perform, step, handle, cancel, CallTable.number?, Option.bind_some, taken, Option.map_some]
  have allowed := cancel_allowed fits taken
  rw [turn, cancelNotice_recall (c := { m.before with calls, link := .up }) rfl allowed]
  exact fun nothing => by cases nothing

theorem up_of_expired (heard : ¬ m.Stifled) (sound : m.before.calls.Sound)
    (fits : Fitting m.before.state m.before.calls.calls) (own : m.act = .input .deadline)
    {expired : List (Nat × Call)} {calls : CallTable}
    (taken : m.before.calls.expire m.time = (expired, calls)) (some : expired ≠ []) :
    m.before.link = .up := by
  by_contra down
  refine heard ⟨down, fun nothing => ?_⟩
  rw [own] at nothing
  have turn : ({ m.before with link := .up } : Connection η).perform m.time (.input .deadline) =
      Turn.each timeOut expired { m.before with calls, link := .up } := by
    simp only [perform, step, expire, taken]
  have lapse := timeOuts_lapse expired { m.before with calls, link := .up }
  rw [← turn] at lapse
  have told := (lapse.allRecalled (fits.expire sound taken) rfl).told
  rw [recallsIn_of_silent nothing] at told
  exact lapse.resolves some (List.map_eq_nil_iff.mp told.symm)

/-- The server is told of each call that is given up. -/
theorem allRecalled (heard : ¬ m.Stifled) (witnessed : Witnessed m.before past)
    (gives : m.act.givesUp = true) : AllRecalled m.out := by
  have sound := witnessed.balanced.sound
  have dealt := m.dealt
  generalize m.next = d, m.out = out at dealt ⊢
  rcases Act.givesUp_cases gives with ⟨id, own⟩ | own
  · rw [own] at dealt
    cases dealt with
    | idle alike unheard => exact allRecalled_nil
    | @gaveUp n call calls taken =>
        have up := up_of_cancelled heard witnessed.fits own taken
        rw [cancelNotice_recall up (cancel_allowed witnessed.fits taken)]
        exact allRecalled_cancelled n
    | filed filing turn told => exact filing.elim
    | ceased running ending => cases ending
    | shut gone => exact allRecalled_closing _
  · rw [own] at dealt
    cases dealt with
    | idle alike unheard => exact allRecalled_nil
    | @lapsed expired calls d out taken lapse =>
        cases expired with
        | nil =>
            cases lapse
            exact allRecalled_nil
        | cons e rest =>
            have up := up_of_expired heard sound witnessed.fits own taken (List.cons_ne_nil _ _)
            exact lapse.allRecalled (witnessed.fits.expire sound taken) up
    | ceased running ending => cases ending
    | shut gone => exact allRecalled_closing _

end Moment

section
variable {config : ClientConfig} {history : List (Time × Input η)} {m : Moment η}

theorem resolvedIds_nodup (config : ClientConfig) (history : List (Time × Input η)) :
    (resolvedIds (outputs config history)).Nodup := by
  obtain ⟨n, -, whole, -⟩ := (run_balanced config history).numbered
  exact (whole.nodup_iff.mpr List.nodup_range').of_append_left

theorem answer_unique {id : Nat} {answer other : Answered}
    (one : .resolved id answer ∈ outputs config history)
    (two : .resolved id other ∈ outputs config history) : answer = other :=
  (Prod.mk.inj (List.inj_on_of_nodup_map (resolvedIds_nodup config history)
    (mem_resolutions.mpr one) (mem_resolutions.mpr two) rfl)).2

end

end ServerProbe.Connection
