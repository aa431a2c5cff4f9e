import ServerProbe.Proofs.Call.Table
/-!
Tables that differ in nothing but what their quarantines have let go. No operation tells them apart
from then on, so it does not matter when a quarantine is cleared of what is over.
-/

namespace ServerProbe

/-- Nothing of a history happens before what precedes it, and all of it between two moments. -/
def Timed {α : Type} : Time → List (Time × α) → Time → Prop
  | start, [], stop => start ≤ stop
  | start, item :: rest, stop => start ≤ item.1 ∧ Timed item.1 rest stop

namespace CallTable

variable {now later : Time} {t u : CallTable}

theorem release_release (t : CallTable) (order : now ≤ later) :
    (t.release now).release later = t.release later := by
  have kept : ∀ q ∈ t.quarantine, (decide (later < q.2.expires) && decide (now < q.2.expires)) =
      decide (later < q.2.expires) := by
    intro q _
    by_cases waits : later < q.2.expires
    · simp [waits, Nat.lt_of_le_of_lt order waits]
    · simp [waits]
  simp only [release, List.filter_filter]
  rw [List.filter_congr kept]

/-- The tables are the same once their quarantines are cleared of what is over by now. -/
def Agree (now : Time) (t u : CallTable) : Prop := t.release now = u.release now

namespace Agree

theorem refl (now : Time) (t : CallTable) : Agree now t t := rfl

theorem symm (h : Agree now t u) : Agree now u t := Eq.symm h

theorem trans {v : CallTable} (first : Agree now t u) (second : Agree now u v) : Agree now t v :=
  Eq.trans first second

theorem mono (h : Agree now t u) (order : now ≤ later) : Agree later t u := by
  unfold Agree
  rw [← release_release t order, ← release_release u order, show t.release now = u.release now from h]

theorem released (now : Time) (t : CallTable) : Agree now (t.release now) t :=
  release_release t (Nat.le_refl now)

theorem next (h : Agree now t u) : u.next = t.next := (congrArg CallTable.next h).symm

theorem calls (h : Agree now t u) : u.calls = t.calls := (congrArg CallTable.calls h).symm

theorem deadlines (h : Agree now t u) : u.deadlines = t.deadlines :=
  (congrArg CallTable.deadlines h).symm

theorem answered (h : Agree now t u) : u.answered = t.answered :=
  (congrArg CallTable.answered h).symm

theorem window (h : Agree now t u) : u.window = t.window := (congrArg CallTable.window h).symm

theorem quarantine (h : Agree now t u) : (u.release now).quarantine = (t.release now).quarantine :=
  (congrArg CallTable.quarantine h).symm

theorem call? (h : Agree now t u) (id : Nat) : u.call? id = t.call? id :=
  congrArg (find? id) h.calls

theorem of_parts (next : u.next = t.next) (calls : u.calls = t.calls)
    (deadlines : u.deadlines = t.deadlines) (answered : u.answered = t.answered)
    (window : u.window = t.window)
    (quarantine : (u.release now).quarantine = (t.release now).quarantine) : Agree now t u := by
  obtain ⟨n, c, d, q, a, w⟩ := t
  obtain ⟨n', c', d', q', a', w'⟩ := u
  obtain rfl : n' = n := next
  obtain rfl : c' = c := calls
  obtain rfl : d' = d := deadlines
  obtain rfl : a' = a := answered
  obtain rfl : w' = w := window
  have same : q'.filter (fun e => decide (now < e.2.expires)) =
      q.filter fun e => decide (now < e.2.expires) := quarantine
  simp only [Agree, release, same]

/-! ### Operations -/

theorem insert (h : Agree now t u) (then' : Time) (method : String) (timeout : Option Span) :
    (u.insert then' method timeout).1 = (t.insert then' method timeout).1 ∧
      Agree now (t.insert then' method timeout).2 (u.insert then' method timeout).2 := by
  refine ⟨h.next, of_parts ?_ ?_ ?_ h.answered h.window h.quarantine⟩
  · simp only [CallTable.insert, h.next]
  · simp only [CallTable.insert, h.next, h.calls]
  · simp only [CallTable.insert, h.next, h.deadlines]

theorem forget (h : Agree now t u) (id : Nat) : Agree now (t.forget id) (u.forget id) := by
  refine of_parts h.next ?_ h.deadlines h.answered h.window h.quarantine
  simp only [CallTable.forget, h.calls]

theorem clear (h : Agree now t u) : Agree now t.clear u.clear :=
  of_parts h.next rfl rfl h.answered h.window h.quarantine

/-- A call that is abandoned clears the quarantine, so nothing is left of the difference. -/
theorem cancel (h : Agree now t u) (id : Nat) : u.cancel now id = t.cancel now id := by
  have waiting : u.quarantine.filter (fun q => decide (now < q.2.expires)) =
      t.quarantine.filter fun q => decide (now < q.2.expires) := h.quarantine
  simp only [CallTable.cancel, h.call?, abandon, release, h.next, h.calls, h.deadlines, h.answered,
    h.window, waiting]

theorem isLive (h : Agree now t u) (entry : Time × Nat) : u.isLive entry = t.isLive entry := by
  simp only [CallTable.isLive, h.call?]

theorem nextDeadline (h : Agree now t u) :
    u.nextDeadline.1 = t.nextDeadline.1 ∧ Agree now t.nextDeadline.2 u.nextDeadline.2 := by
  have queue : u.nextDeadline.2.deadlines = t.nextDeadline.2.deadlines := by
    simp only [CallTable.nextDeadline, h.deadlines, h.isLive]
  exact ⟨congrArg (·.head?.map Prod.fst) queue,
    of_parts h.next h.calls queue h.answered h.window h.quarantine⟩

theorem expireFrom (h : Agree now t u) (queue : List (Time × Nat)) :
    (CallTable.expireFrom now queue u).1 = (CallTable.expireFrom now queue t).1 ∧
      Agree now (CallTable.expireFrom now queue t).2 (CallTable.expireFrom now queue u).2 := by
  induction queue generalizing t u with
  | nil => exact ⟨rfl, of_parts h.next h.calls rfl h.answered h.window h.quarantine⟩
  | cons e rest ih =>
      unfold CallTable.expireFrom
      rw [h.isLive, h.cancel]
      split
      · exact ⟨rfl, of_parts h.next h.calls rfl h.answered h.window h.quarantine⟩
      · split
        · split
          · exact ⟨rfl, .refl now _⟩
          · exact ih h
        · exact ih h

theorem expire (h : Agree now t u) :
    (u.expire now).1 = (t.expire now).1 ∧ Agree now (t.expire now).2 (u.expire now).2 := by
  have same := h.expireFrom t.deadlines
  unfold CallTable.expire
  rwa [h.deadlines]

theorem takeForResponse (h : Agree now t u) (id : Rpc.Id) :
    (u.takeForResponse now id).1 = (t.takeForResponse now id).1 ∧
      Agree now (t.takeForResponse now id).2 (u.takeForResponse now id).2 := by
  unfold CallTable.takeForResponse
  rw [show u.release now = t.release now from h.symm]
  split
  · exact ⟨rfl, h⟩
  · split
    · exact ⟨rfl, .refl now _⟩
    · rw [h.call?]
      split
      · refine ⟨rfl, of_parts h.next ?_ h.deadlines ?_ h.window h.quarantine⟩
        · simp only [rememberAnswered, h.calls]
        · simp only [rememberAnswered, h.answered]
      · exact ⟨rfl, .refl now _⟩

end Agree

/-- An answer that claims no call leaves the table as it was, but for what its quarantine lets go. -/
theorem takeForResponse_agree {id : Rpc.Id} {found : Lookup} {rest : CallTable}
    (h : t.takeForResponse now id = (found, rest)) (unmatched : ∀ n call, found ≠ .outstanding n call) :
    Agree now t rest := by
  unfold takeForResponse at h
  split at h
  · obtain ⟨-, rfl⟩ := Prod.mk.inj h
    exact .refl now t
  · split at h
    · obtain ⟨-, rfl⟩ := Prod.mk.inj h
      exact (Agree.released now t).symm
    · split at h
      · exact absurd (congrArg Prod.fst h).symm (unmatched _ _)
      · obtain ⟨-, rfl⟩ := Prod.mk.inj h
        exact (Agree.released now t).symm

end CallTable

end ServerProbe
