import Mathlib.Order.Bounds.Defs
import ServerProbe.Proofs.Call.Ledger
/-!
Deadlines after any history of a table of calls.

The queue is never searched for the entries of calls that are gone. All the same the next deadline and
the calls that expire are those one would get by going through the ledger.
-/

namespace ServerProbe.CallTable

variable {t : CallTable} {now : Time} {queue : List (Time × Nat)}

/-! ### The order of the queue -/

/-- Entries stand by deadline, and by id where deadlines are equal. -/
def Arranged (queue : List (Time × Nat)) : Prop := queue.Pairwise fun a b => precedes a b = true

theorem precedes_iff {a b : Time × Nat} :
    precedes a b = true ↔ a.1 < b.1 ∨ a.1 = b.1 ∧ a.2 ≤ b.2 := by
  simp [precedes]

theorem precedes_of_not {a b : Time × Nat} (h : ¬ precedes a b = true) : precedes b a = true := by
  rw [precedes_iff] at h ⊢
  grind

theorem precedes_trans {a b c : Time × Nat} (first : precedes a b = true)
    (rest : precedes b c = true) : precedes a c = true := by
  rw [precedes_iff] at first rest ⊢
  grind

theorem Arranged.enqueue (arranged : Arranged queue) (entry : Time × Nat) :
    Arranged (enqueue entry queue) :=
  pairwise_enqueue (fun h => h) precedes_of_not precedes_trans arranged entry

theorem expireFrom_queue (now : Time) (queue : List (Time × Nat)) (t : CallTable) :
    (expireFrom now queue t).2.deadlines.Sublist queue := by
  induction queue generalizing t with
  | nil => exact List.Sublist.refl _
  | cons e rest ih =>
      unfold expireFrom
      split
      · exact List.Sublist.refl _
      · split
        · split
          · exact (ih _).cons e
          · exact (ih t).cons e
        · exact (ih t).cons e

theorem takeForResponse_queue (t : CallTable) (now : Time) (id : Rpc.Id) :
    (t.takeForResponse now id).2.deadlines = t.deadlines := by
  unfold takeForResponse
  split
  · rfl
  · split
    · rfl
    · split <;> rfl

/-- An operation puts at most one entry into the queue, at its place, and otherwise only drops some. -/
theorem operate_queue (t : CallTable) (now : Time) (operation : Operation) :
    (t.operate now operation).deadlines.Sublist t.deadlines ∨
      ∃ entry, (t.operate now operation).deadlines = enqueue entry t.deadlines := by
  cases operation with
  | insert method timeout =>
      cases set : deadlineAfter now timeout with
      | none => exact .inl (by simp only [operate, insert, set, List.Sublist.refl])
      | some due => exact .inr ⟨(due, t.next), by simp only [operate, insert, set]⟩
  | forget id => exact .inl (List.Sublist.refl _)
  | take id => exact .inl (t.takeForResponse_queue now id ▸ List.Sublist.refl _)
  | cancel id =>
      cases held : t.call? id with
      | none => exact .inl (by simp only [operate, cancel, held, Option.map_none, Option.getD_none,
          List.Sublist.refl])
      | some call => exact .inl (by simp only [operate, cancel, held, Option.map_some,
          Option.getD_some, abandon, release, List.Sublist.refl])
  | expire => exact .inl (expireFrom_queue now t.deadlines t)
  | nextDeadline => exact .inl t.nextDeadline_queue
  | clear => exact .inl (List.nil_sublist _)

theorem Arranged.operate (arranged : Arranged t.deadlines) (now : Time) (operation : Operation) :
    Arranged (t.operate now operation).deadlines := by
  rcases t.operate_queue now operation with dropped | ⟨entry, entered⟩
  · exact arranged.sublist dropped
  · rw [entered]
    exact arranged.enqueue entry

theorem Arranged.operateAll (arranged : Arranged t.deadlines) (history : CallHistory) :
    Arranged (t.operateAll history).deadlines := by
  induction history generalizing t with
  | nil => exact arranged
  | cons item rest ih => exact ih (arranged.operate item.1 item.2)

/-! ### The next deadline -/

theorem nextDeadline_live {first : Time} (h : t.nextDeadline.1 = some first) :
    ∃ n call, t.call? n = some call ∧ call.deadline = some first := by
  obtain ⟨e, front, rfl⟩ := Option.map_eq_some_iff.mp h
  -- The front of what is left was not dropped.
  have live : ¬ (!t.isLive e) = true := by
    have test := List.head?_dropWhile_not (fun e => !t.isLive e) t.deadlines
    rw [front] at test
    simpa using test
  cases held : t.call? e.2 with
  | none => simp [isLive, held] at live
  | some call => exact ⟨e.2, call, held, by simpa [isLive, held] using live⟩

/-- The deadlines that are set for outstanding calls. -/
def Awaited (t : CallTable) (deadline : Time) : Prop :=
  ∃ n call, t.call? n = some call ∧ call.deadline = some deadline

theorem Punctual.nextDeadline_isLeast (punctual : t.Punctual) {first : Time} :
    t.nextDeadline.1 = some first ↔ IsLeast {d | t.Awaited d} first := by
  constructor
  · intro next
    refine ⟨nextDeadline_live next, ?_⟩
    rintro deadline ⟨n, call, held, set⟩
    obtain ⟨least, found, early⟩ := punctual.nextDeadline_le held set
    rwa [← Option.some.inj (next.symm.trans found)] at early
  · rintro ⟨⟨n, call, held, set⟩, lower⟩
    obtain ⟨least, found, early⟩ := punctual.nextDeadline_le held set
    have late : first ≤ least := lower (nextDeadline_live found)
    rw [found, Nat.le_antisymm early late]

theorem Punctual.nextDeadline_eq_none (punctual : t.Punctual) :
    t.nextDeadline.1 = none ↔ ∀ n call, t.call? n = some call → call.deadline = none := by
  constructor
  · intro none n call held
    cases set : call.deadline with
    | none => rfl
    | some deadline =>
        obtain ⟨least, found, -⟩ := punctual.nextDeadline_le held set
        cases none.symm.trans found
  · intro unset
    refine Option.eq_none_iff_forall_ne_some.mpr fun first next => ?_
    obtain ⟨n, call, held, set⟩ := nextDeadline_live next
    cases (unset n call held).symm.trans set

/-! ### What expires -/

/-- One call is due before another: its deadline is earlier, or they are equal and its id is. -/
def Sooner (a b : Nat × Call) : Prop :=
  ∃ d e, a.2.deadline = some d ∧ b.2.deadline = some e ∧ (d < e ∨ d = e ∧ a.1 < b.1)

/-- Each call that expires has its entry in the queue. -/
theorem expireFrom_entries {e : Nat × Call} (held : e ∈ (expireFrom now queue t).1) :
    ∃ deadline, e.2.deadline = some deadline ∧ (deadline, e.1) ∈ queue := by
  induction queue generalizing t with
  | nil => cases held
  | cons entry rest ih =>
      have behind : ∀ {u : CallTable}, e ∈ (expireFrom now rest u).1 →
          ∃ deadline, e.2.deadline = some deadline ∧ (deadline, e.1) ∈ entry :: rest := by
        intro u later
        obtain ⟨deadline, set, queued⟩ := ih later
        exact ⟨deadline, set, List.mem_cons_of_mem _ queued⟩
      unfold expireFrom at held
      split at held
      · cases held
      · split at held
        · rename_i live
          split at held
          · rename_i call u cancelled
            rcases List.mem_cons.mp held with rfl | later
            · refine ⟨entry.1, ?_, List.mem_cons_self⟩
              simpa [isLive, (cancel_taken cancelled).held] using live
            · exact behind later
          · exact behind held
        · exact behind held

/-- Calls expire in the order of their entries; that none expires twice makes it a strict one. -/
theorem expireFrom_sooner (arranged : Arranged queue)
    (once : ((expireFrom now queue t).1.map Prod.fst).Nodup) :
    (expireFrom now queue t).1.Pairwise Sooner := by
  induction queue generalizing t with
  | nil => exact .nil
  | cons entry rest ih =>
      obtain ⟨first, rest_arranged⟩ := List.pairwise_cons.mp arranged
      unfold expireFrom at once ⊢
      split
      · exact .nil
      · rename_i passed
        rw [if_neg passed] at once
        split
        · rename_i live
          rw [if_pos live] at once
          split
          · rename_i call u cancelled
            simp only [cancelled] at once
            obtain ⟨new, once⟩ := List.nodup_cons.mp once
            refine List.pairwise_cons.mpr ⟨fun e later => ?_, ih rest_arranged once⟩
            obtain ⟨deadline, set, queued⟩ := expireFrom_entries later
            have own : call.deadline = some entry.1 := by
              simpa [isLive, (cancel_taken cancelled).held] using live
            have other : entry.2 ≠ e.1 := by
              intro same
              have again := mem_keys later
              exact new (same ▸ again)
            refine ⟨entry.1, deadline, own, set, ?_⟩
            rcases precedes_iff.mp (first _ queued) with earlier | ⟨same, le⟩
            · exact .inl earlier
            · exact .inr ⟨same, Nat.lt_of_le_of_ne le other⟩
          · rename_i absent
            simp only [absent] at once
            exact ih rest_arranged once
        · rename_i dead
          rw [if_neg dead] at once
          exact ih rest_arranged once

theorem expire_once (sound : t.Sound) (now : Time) : ((t.expire now).1.map Prod.fst).Nodup := by
  have all := (expireFrom_drawn now t.deadlines t).perm_ids sound
  exact (List.nodup_append.mp (all.nodup_iff.mp sound.distinct)).1

/-- The calls that expire are those that are due. -/
theorem Punctual.mem_expire (punctual : t.Punctual) (sound : t.Sound) {n : Nat} {call : Call} :
    (n, call) ∈ (t.expire now).1 ↔ t.call? n = some call ∧ Due now call := by
  have drawn := expireFrom_drawn now t.deadlines t
  constructor
  · exact fun expired => drawn.held (n, call) expired
  · rintro ⟨held, due⟩
    have somewhere := (drawn.perm sound).mem_iff.mp (mem_of_find? held)
    rcases List.mem_append.mp somewhere with expired | left
    · exact expired
    · have still : (t.expire now).2.call? n = some call :=
        find?_of_mem (drawn.within.sound sound).distinct left
      exact absurd due (punctual.call?_expire.mp still).2

/-! ### After a history -/

/-- The table that a history leaves. -/
def ofHistory (quarantine : Span) (history : CallHistory) : CallTable :=
  (fresh quarantine).operateAll history

/-- A call is outstanding after a history, as the ledger has it. -/
def Outstanding (history : CallHistory) (n : Nat) (call : Call) : Prop :=
  (Ledger.blank.recordAll history).entry n = some (call, .outstanding)

/-- Deadlines are kept as they would be by going through all outstanding calls. -/
structure OnTime (quarantine : Span) (history : CallHistory) (now : Time) : Prop where
  next : ∀ first, (ofHistory quarantine history).nextDeadline.1 = some first ↔
    IsLeast {d | ∃ n call, Outstanding history n call ∧ call.deadline = some d} first
  idle : (ofHistory quarantine history).nextDeadline.1 = none ↔
    ∀ n call, Outstanding history n call → call.deadline = none
  expired : ∀ n call, (n, call) ∈ ((ofHistory quarantine history).expire now).1 ↔
    Outstanding history n call ∧ Due now call
  once : (((ofHistory quarantine history).expire now).1.map Prod.fst).Nodup
  ordered : ((ofHistory quarantine history).expire now).1.Pairwise Sooner
  left : ∀ n call, ((ofHistory quarantine history).expire now).2.call? n = some call ↔
    Outstanding history n call ∧ ¬ Due now call
  /-- A response to a call that has expired comes too late, as long as the quarantine lasts. -/
  quarantined : ∀ n call, Outstanding history n call → Due now call → ∀ later, now ≤ later →
    (((ofHistory quarantine history).expire now).2.takeForResponse later (.number n)).1 =
      if later < now + min quarantine.nanos greatestWindow.nanos then .late call.method else .unknown
  /-- To any other response it makes no difference that calls have expired. -/
  spared : ∀ n, (∀ call, Outstanding history n call → ¬ Due now call) → ∀ later, now ≤ later →
    (((ofHistory quarantine history).expire now).2.takeForResponse later (.number n)).1 =
      ((ofHistory quarantine history).takeForResponse later (.number n)).1

/-- After every history the next deadline is the least one of an outstanding call, and exactly the
calls that are due expire, in order. -/
theorem on_time (quarantine : Span) (history : CallHistory) (now : Time)
    (timed : Timed 0 history now) : OnTime quarantine history now := by
  have kept : Kept _ now (ofHistory quarantine history) (Ledger.blank.recordAll history) :=
    (fresh_kept quarantine).operateAll timed
  have arranged : Arranged (ofHistory quarantine history).deadlines :=
    Arranged.operateAll (t := fresh quarantine) .nil history
  have outstanding : ∀ n call, (ofHistory quarantine history).call? n = some call ↔
      Outstanding history n call := kept.outstanding
  have once := expire_once kept.sound now
  refine ⟨fun first => ?_, ?_, fun n call => ?_, once, expireFrom_sooner arranged once,
    fun n call => ?_, fun n call held due later order => ?_, fun n spared later order => ?_⟩
  · simp only [kept.punctual.nextDeadline_isLeast, Awaited, outstanding]
  · simp only [kept.punctual.nextDeadline_eq_none, outstanding]
  · rw [kept.punctual.mem_expire kept.sound, outstanding]
  · rw [kept.punctual.call?_expire, outstanding]
  · have rules := (kept.expire.mono order).rules (.number n)
    exact rules.of_entry rfl (Ledger.close_entry.mpr (.inr ⟨rfl, held, due⟩))
  · refine ((kept.mono order).rules (.number n)).eq_of_entry ((kept.expire.mono order).rules _) ?_
    intro m number
    obtain rfl := Option.some.inj number
    refine Ledger.close_spared ?_ _
    exact spared

/-- Of three calls one is answered before its deadline; its entry is still first in the queue when the
second one expires. -/
theorem on_time_stale :
    let history : CallHistory := [(0, .insert "slow" (some (.ofMillis 200))),
      (0, .insert "quick" (some (.ofMillis 10))), (0, .insert "fast" (some (.ofMillis 50))),
      (5000000, .take (.number 2))]
    Timed 0 history 100000000 ∧
      (ofHistory (.ofSeconds 30) history).deadlines.head? = some (10000000, 2) ∧
      IsLeast {d | ∃ n call, Outstanding history n call ∧ call.deadline = some d} 50000000 ∧
      (∃ call, (3, call) ∈ ((ofHistory (.ofSeconds 30) history).expire 100000000).1) ∧
      ∀ call, (2, call) ∉ ((ofHistory (.ofSeconds 30) history).expire 100000000).1 := by
  intro history
  have timed : Timed 0 history 100000000 := by simp [Timed, history]
  have kept := on_time (.ofSeconds 30) history 100000000 timed
  have next : (ofHistory (.ofSeconds 30) history).nextDeadline.1 = some 50000000 := by decide +kernel
  refine ⟨timed, by decide +kernel, (kept.next _).mp next,
    ⟨⟨"fast", some (.ofMillis 50), some 50000000⟩, ?_⟩, fun call expired => ?_⟩
  · exact (kept.expired _ _).mpr ⟨rfl, 50000000, rfl, by decide⟩
  · obtain ⟨held, -⟩ := (kept.expired _ _).mp expired
    cases held

end ServerProbe.CallTable
