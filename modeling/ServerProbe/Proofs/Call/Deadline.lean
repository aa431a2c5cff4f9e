import Mathlib.Data.List.TakeWhile
import ServerProbe.Proofs.Call.Table
/-!
The queue of deadlines. It may hold entries of calls that are gone, but it is in order and lacks no
outstanding call; so the earliest deadline is found, and a call expires exactly when it is due.
-/

namespace ServerProbe.CallTable

/-! ### Order -/

def Ordered (queue : List (Time × Nat)) : Prop := queue.Pairwise fun a b => a.1 ≤ b.1

theorem le_of_precedes {a b : Time × Nat} (h : precedes a b = true) : a.1 ≤ b.1 := by
  simp only [precedes, Bool.or_eq_true, Bool.and_eq_true, decide_eq_true_eq, beq_iff_eq] at h
  rcases h with earlier | ⟨same, -⟩
  · exact Nat.le_of_lt earlier
  · exact Nat.le_of_eq same

theorem le_of_not_precedes {a b : Time × Nat} (h : ¬ precedes a b = true) : b.1 ≤ a.1 := by
  simp only [precedes, Bool.or_eq_true, decide_eq_true_eq, not_or] at h
  exact Nat.le_of_not_lt h.1

theorem mem_enqueue {entry other : Time × Nat} {queue : List (Time × Nat)} :
    other ∈ enqueue entry queue ↔ other = entry ∨ other ∈ queue := by
  induction queue with
  | nil => simp [enqueue]
  | cons e rest ih =>
      unfold enqueue
      split
      · exact List.mem_cons
      · rw [List.mem_cons, ih, List.mem_cons]
        exact or_left_comm

/-- An entry is put in at its place, in any order that goes by what precedes what. -/
theorem pairwise_enqueue {R : Time × Nat → Time × Nat → Prop} {queue : List (Time × Nat)}
    (before : ∀ {a b}, precedes a b = true → R a b) (after : ∀ {a b}, ¬ precedes a b = true → R b a)
    (trans : ∀ {a b c}, R a b → R b c → R a c) (ordered : queue.Pairwise R) (entry : Time × Nat) :
    (enqueue entry queue).Pairwise R := by
  induction queue with
  | nil => exact List.pairwise_singleton _ _
  | cons e rest ih =>
      obtain ⟨least, rest_ordered⟩ := List.pairwise_cons.mp ordered
      unfold enqueue
      split
      · rename_i first
        refine List.pairwise_cons.mpr ⟨fun other held => ?_, ordered⟩
        rcases List.mem_cons.mp held with rfl | later
        · exact before first
        · exact trans (before first) (least other later)
      · rename_i second
        refine List.pairwise_cons.mpr ⟨fun other held => ?_, ih rest_ordered⟩
        rcases mem_enqueue.mp held with rfl | later
        · exact after second
        · exact least other later

theorem Ordered.enqueue {queue : List (Time × Nat)} (ordered : Ordered queue) (entry : Time × Nat) :
    Ordered (enqueue entry queue) :=
  pairwise_enqueue le_of_precedes le_of_not_precedes Nat.le_trans ordered entry

/-! ### Punctual tables -/

/-- The queue is in order, and the deadline of every outstanding call is in it. -/
structure Punctual (t : CallTable) : Prop where
  ordered : Ordered t.deadlines
  queued : ∀ id call, t.call? id = some call → ∀ deadline, call.deadline = some deadline →
    (deadline, id) ∈ t.deadlines

theorem fresh_punctual (quarantine : Span) : (fresh quarantine).Punctual :=
  ⟨List.Pairwise.nil, fun _ _ held => by cases held⟩

/-- Calls may go while the queue stays. -/
theorem Punctual.within {t rest : CallTable} (punctual : t.Punctual)
    (kept : ∀ id call, rest.call? id = some call → t.call? id = some call)
    (same : rest.deadlines = t.deadlines) : rest.Punctual := by
  refine ⟨same ▸ punctual.ordered, fun id call held deadline set => ?_⟩
  rw [same]
  exact punctual.queued id call (kept id call held) deadline set

theorem Punctual.without {t : CallTable} (punctual : t.Punctual) {rest : CallTable} (id : Nat)
    (calls : rest.calls = CallTable.without id t.calls) (same : rest.deadlines = t.deadlines) :
    rest.Punctual := by
  refine punctual.within (fun other call held => ?_) same
  rw [call?, calls, find?_without] at held
  split at held
  · exact held
  · cases held

theorem Punctual.insert {t : CallTable} (punctual : t.Punctual) (now : Time) (method : String)
    (timeout : Option Span) : (t.insert now method timeout).2.Punctual := by
  cases set : deadlineAfter now timeout with
  | none =>
      have queue : (t.insert now method timeout).2.deadlines = t.deadlines := by
        simp only [CallTable.insert, set]
      refine ⟨queue ▸ punctual.ordered, fun id call held deadline own => ?_⟩
      rw [queue]
      rw [call?, insert_calls, find?] at held
      split at held
      · obtain rfl := Option.some.inj held
        cases set.symm.trans own
      · exact punctual.queued id call held deadline own
  | some due =>
      have queue : (t.insert now method timeout).2.deadlines = enqueue (due, t.next) t.deadlines := by
        simp only [CallTable.insert, set]
      refine ⟨queue ▸ punctual.ordered.enqueue _, fun id call held deadline own => ?_⟩
      rw [queue, mem_enqueue]
      rw [call?, insert_calls, find?] at held
      split at held
      · rename_i same
        obtain rfl := Option.some.inj held
        obtain rfl := Option.some.inj (set.symm.trans own)
        exact .inl (congrArg _ (eq_of_beq same).symm)
      · exact .inr (punctual.queued id call held deadline own)

theorem Punctual.forget {t : CallTable} (punctual : t.Punctual) (id : Nat) :
    (t.forget id).Punctual := punctual.without id rfl rfl

theorem Punctual.cancel {t rest : CallTable} (punctual : t.Punctual) {now : Time} {id : Nat}
    {call : Call} (h : t.cancel now id = some (call, rest)) : rest.Punctual := by
  obtain ⟨found, -, same⟩ := Option.map_eq_some_iff.mp h
  obtain ⟨-, rfl⟩ := Prod.mk.inj same
  exact punctual.without id rfl rfl

theorem Punctual.takeForResponse {t : CallTable} (punctual : t.Punctual) (now : Time) (id : Rpc.Id) :
    (t.takeForResponse now id).2.Punctual := by
  unfold CallTable.takeForResponse
  split
  · exact punctual
  · split
    · exact ⟨punctual.ordered, punctual.queued⟩
    · split
      · exact punctual.without _ rfl rfl
      · exact ⟨punctual.ordered, punctual.queued⟩

theorem Punctual.clear {t : CallTable} : t.clear.Punctual :=
  ⟨List.Pairwise.nil, fun _ _ held => by cases held⟩

/-! ### Expiry -/

/-- The entry of an outstanding call is live. -/
theorem isLive_of_deadline {t : CallTable} {id : Nat} {call : Call} {deadline : Time}
    (held : t.call? id = some call) (set : call.deadline = some deadline) :
    t.isLive (deadline, id) = true := by
  simp only [isLive, held, set, beq_self_eq_true]

section Front

variable {now : Time} {t : CallTable} {e : Time × Nat} {rest : List (Time × Nat)}

/-- What is behind the front entry stays queued unless its call is the entry's own. -/
theorem Punctual.behind (punctual : Punctual { t with deadlines := e :: rest }) {id : Nat} {call : Call}
    (held : t.call? id = some call) {deadline : Time} (set : call.deadline = some deadline)
    (other : (deadline, id) ≠ e) : (deadline, id) ∈ rest :=
  (List.mem_cons.mp (punctual.queued id call held deadline set)).resolve_left other

/-- Nothing is due before the front entry is. -/
theorem Punctual.not_due (punctual : Punctual { t with deadlines := e :: rest }) (early : now < e.1)
    {id : Nat} {call : Call} (held : t.call? id = some call) : ¬ Due now call := by
  rintro ⟨deadline, set, passed⟩
  rcases List.mem_cons.mp (punctual.queued id call held deadline set) with rfl | later
  · exact absurd passed (Nat.not_le.mpr early)
  · have least := (List.pairwise_cons.mp punctual.ordered).1 _ later
    exact absurd (Nat.le_trans least passed) (Nat.not_le.mpr early)

theorem Punctual.dropped (punctual : Punctual { t with deadlines := e :: rest })
    (dead : ¬ t.isLive e = true) : Punctual { t with deadlines := rest } := by
  refine ⟨(List.pairwise_cons.mp punctual.ordered).2, fun id call held deadline set => ?_⟩
  refine punctual.behind held set fun same => dead ?_
  rw [← same]
  exact isLive_of_deadline held set

theorem Punctual.taken (punctual : Punctual { t with deadlines := e :: rest }) {own : Call}
    {u : CallTable} (taken : t.Taken e.2 own u) : Punctual { u with deadlines := rest } := by
  refine ⟨(List.pairwise_cons.mp punctual.ordered).2, fun id call held deadline set => ?_⟩
  obtain ⟨other, held⟩ := taken.call?_eq_some.mp held
  exact punctual.behind held set fun same => other (congrArg Prod.snd same)

end Front

/-- A call that is due does not count among those that are not. -/
theorem Taken.call?_not_due {t u : CallTable} {now : Time} {n : Nat} {own : Call} (taken : t.Taken n own u)
    (due : Due now own) {id : Nat} {call : Call} :
    u.call? id = some call ∧ ¬ Due now call ↔ t.call? id = some call ∧ ¬ Due now call := by
  rw [taken.call?_eq_some]
  constructor
  · rintro ⟨⟨-, held⟩, not_due⟩
    exact ⟨held, not_due⟩
  · rintro ⟨held, not_due⟩
    refine ⟨⟨fun same => not_due ?_, held⟩, not_due⟩
    rw [same, taken.held] at held
    exact Option.some.inj held ▸ due

/-- Taking the entries of a punctual queue that are due leaves the calls that are not. -/
theorem expireFrom_punctual {now : Time} {queue : List (Time × Nat)} {t : CallTable}
    (punctual : Punctual { t with deadlines := queue }) :
    (expireFrom now queue t).2.Punctual ∧ ∀ id call,
      (expireFrom now queue t).2.call? id = some call ↔ t.call? id = some call ∧ ¬ Due now call := by
  induction queue generalizing t with
  | nil =>
      refine ⟨punctual, fun id call => ⟨fun held => ⟨held, ?_⟩, And.left⟩⟩
      rintro ⟨deadline, set, -⟩
      cases punctual.queued id call held deadline set
  | cons e rest ih =>
      unfold expireFrom
      by_cases early : now < e.1
      · rw [if_pos early]
        exact ⟨punctual, fun id call => ⟨fun held => ⟨held, punctual.not_due early held⟩, And.left⟩⟩
      · rw [if_neg early]
        by_cases live : t.isLive e = true
        · rw [if_pos live]
          cases cancelled : t.cancel now e.2 with
          | none =>
              have absent : t.call? e.2 = none := Option.map_eq_none_iff.mp cancelled
              simp only [isLive, absent, Bool.false_eq_true] at live
          | some result =>
              obtain ⟨own, u⟩ := result
              have taken : t.Taken e.2 own u := cancel_taken cancelled
              have due : Due now own := by
                simp only [isLive, taken.held, beq_iff_eq] at live
                exact ⟨e.1, live, Nat.le_of_not_lt early⟩
              obtain ⟨later, left⟩ := ih (punctual.taken taken)
              exact ⟨later, fun id call => (left id call).trans (taken.call?_not_due due)⟩
        · rw [if_neg live]
          exact ih (punctual.dropped live)

theorem Punctual.expire {t : CallTable} (punctual : t.Punctual) (now : Time) :
    (t.expire now).2.Punctual := (expireFrom_punctual punctual).1

/-- A call is outstanding after an expiry if it was so before and is not due. -/
theorem Punctual.call?_expire {t : CallTable} (punctual : t.Punctual) {now : Time} {id : Nat}
    {call : Call} : (t.expire now).2.call? id = some call ↔ t.call? id = some call ∧ ¬ Due now call :=
  (expireFrom_punctual punctual).2 id call

/-! ### The earliest deadline -/

theorem nextDeadline_queue (t : CallTable) : t.nextDeadline.2.deadlines.Sublist t.deadlines :=
  List.dropWhile_sublist _

theorem Punctual.nextDeadline {t : CallTable} (punctual : t.Punctual) :
    t.nextDeadline.2.Punctual := by
  refine ⟨punctual.ordered.sublist t.nextDeadline_queue, fun id call held deadline set => ?_⟩
  have there := punctual.queued id call held deadline set
  -- The entry of an outstanding call is live, so it stands behind all that is dropped.
  rw [← List.takeWhile_append_dropWhile (p := fun e => !t.isLive e) (l := t.deadlines)] at there
  rcases List.mem_append.mp there with dropped | kept
  · have outstanding : t.call? id = some call := held
    have dead := List.mem_takeWhile_imp dropped
    rw [isLive_of_deadline outstanding set] at dead
    cases dead
  · exact kept

/-- A deadline is waited for that is no later than that of any outstanding call. -/
theorem Punctual.nextDeadline_le {t : CallTable} (punctual : t.Punctual) {id : Nat} {call : Call}
    {deadline : Time} (held : t.call? id = some call) (set : call.deadline = some deadline) :
    ∃ first, t.nextDeadline.1 = some first ∧ first ≤ deadline := by
  have there := punctual.nextDeadline.queued id call held deadline set
  have ordered := punctual.nextDeadline.ordered
  cases queue : t.nextDeadline.2.deadlines with
  | nil =>
      rw [queue] at there
      cases there
  | cons e rest =>
      have first : t.nextDeadline.1 = some e.1 := congrArg (·.head?.map Prod.fst) queue
      refine ⟨e.1, first, ?_⟩
      rw [queue] at there ordered
      rcases List.mem_cons.mp there with rfl | later
      · exact Nat.le_refl _
      · exact (List.pairwise_cons.mp ordered).1 _ later

end ServerProbe.CallTable
