import ServerProbe.Proofs.Call.Deadline
import ServerProbe.Proofs.Call.Memory
import ServerProbe.Proofs.Call.Quarantine
/-!
What a response is taken for, after any history of a table of calls.

A ledger writes down all calls ever made and what became of each. It forgets nothing and knows nothing
of queues, quarantines and bounded memories; a table answers every lookup as the ledger would.
-/

namespace ServerProbe

/-! ### Histories -/

/-- What can be done with a table of calls. -/
inductive Operation where
  | insert (method : String) (timeout : Option Span)
  | forget (id : Nat)
  | take (id : Rpc.Id)
  | cancel (id : Nat)
  | expire
  | nextDeadline
  | clear
deriving DecidableEq, Repr

/-- Operations with the moments they happen at. -/
abbrev CallHistory : Type := List (Time × Operation)

namespace CallTable

def operate (t : CallTable) (now : Time) : Operation → CallTable
  | .insert method timeout => (t.insert now method timeout).2
  | .forget id => t.forget id
  | .take id => (t.takeForResponse now id).2
  | .cancel id => ((t.cancel now id).map Prod.snd).getD t
  | .expire => (t.expire now).2
  | .nextDeadline => t.nextDeadline.2
  | .clear => t.clear

def operateAll (t : CallTable) (history : CallHistory) : CallTable :=
  history.foldl (fun t item => t.operate item.1 item.2) t

instance (now : Time) (call : Call) : Decidable (Due now call) :=
  decidable_of_iff (call.deadline.any fun deadline => decide (deadline ≤ now)) (by
    cases set : call.deadline <;> simp [Due, set])

end CallTable

/-! ### Ledgers -/

/-- What has become of a call. -/
inductive Standing where
  | outstanding
  /-- Claimed by a response; so many other calls were claimed since. -/
  | claimed (later : Nat)
  /-- Cancelled or expired. -/
  | abandoned (since : Time)
  /-- Forgotten before it was sent, or failed with all others. -/
  | dropped
deriving DecidableEq, Repr

/-- What a response that comes now for such a call is taken for. -/
def Standing.ruling (window : Nat) (now : Time) (n : Nat) (call : Call) : Standing → Lookup
  | .outstanding => .outstanding n call
  | .claimed later => if later < CallTable.greatestHistory then .duplicate call.method else .unknown
  | .abandoned since => if now < since + window then .late call.method else .unknown
  | .dropped => .unknown

namespace Standing

variable {window : Nat} {now : Time} {n : Nat} {call : Call} {standing : Standing}

theorem ruling_outstanding {m : Nat} {own : Call} :
    standing.ruling window now n call = .outstanding m own ↔
      standing = .outstanding ∧ n = m ∧ call = own := by
  cases standing with
  | outstanding => simp [ruling]
  | claimed later => by_cases recent : later < CallTable.greatestHistory <;> simp [ruling, recent]
  | abandoned since => by_cases waits : now < since + window <;> simp [ruling, waits]
  | dropped => simp [ruling]

theorem ruling_late {method : String} : standing.ruling window now n call = .late method ↔
    ∃ since, standing = .abandoned since ∧ now < since + window ∧ call.method = method := by
  cases standing with
  | outstanding => simp [ruling]
  | claimed later => by_cases recent : later < CallTable.greatestHistory <;> simp [ruling, recent]
  | abandoned since => by_cases waits : now < since + window <;> simp [ruling, waits]
  | dropped => simp [ruling]

theorem ruling_duplicate {method : String} : standing.ruling window now n call = .duplicate method ↔
    ∃ later, standing = .claimed later ∧ later < 1024 ∧ call.method = method := by
  cases standing with
  | outstanding => simp [ruling]
  | claimed later =>
      by_cases recent : later < 1024 <;> simp [ruling, CallTable.greatestHistory, recent]
  | abandoned since => by_cases waits : now < since + window <;> simp [ruling, waits]
  | dropped => simp [ruling]

theorem ruling_unknown : standing.ruling window now n call = .unknown ↔
    standing = .dropped ∨ (∃ since, standing = .abandoned since ∧ since + window ≤ now) ∨
      ∃ later, standing = .claimed later ∧ 1024 ≤ later := by
  cases standing with
  | outstanding => simp [ruling]
  | claimed later =>
      by_cases recent : later < 1024
      · simp [ruling, CallTable.greatestHistory, recent]
      · simp [ruling, CallTable.greatestHistory, recent, Nat.le_of_not_lt recent]
  | abandoned since =>
      by_cases waits : now < since + window
      · simp [ruling, waits]
      · simp [ruling, waits, Nat.le_of_not_lt waits]
  | dropped => simp [ruling]

end Standing

structure Ledger where
  issued : Nat
  entry : Nat → Option (Call × Standing)

namespace Ledger

def blank : Ledger := ⟨0, fun _ => none⟩

/-- Enters a new call under the next number. -/
def enter (l : Ledger) (call : Call) : Ledger :=
  ⟨l.issued + 1, fun n => if n = l.issued + 1 then some (call, .outstanding) else l.entry n⟩

/-- Ends the wait for some of the outstanding calls. -/
def close (l : Ledger) (which : Nat → Call → Prop) [∀ n call, Decidable (which n call)]
    (standing : Standing) : Ledger :=
  { l with
    entry := fun n => (l.entry n).map fun e =>
      if e.2 = .outstanding ∧ which n e.1 then (e.1, standing) else e }

/-- Counts one more claim for every call that was claimed. -/
def age (l : Ledger) : Ledger :=
  { l with
    entry := fun n => (l.entry n).map fun e =>
      match e.2 with
      | .claimed later => (e.1, .claimed (later + 1))
      | _ => e }

/-- Whether a response with this number would claim a call. -/
def awaits (l : Ledger) (n : Nat) : Bool := (l.entry n).any fun e => e.2 = .outstanding

def record (l : Ledger) (now : Time) : Operation → Ledger
  | .insert method timeout => l.enter ⟨method, timeout, CallTable.deadlineAfter now timeout⟩
  | .forget id => l.close (fun n _ => n = id) .dropped
  | .take id =>
    match CallTable.number? id with
    | some n => if l.awaits n then l.age.close (fun m _ => m = n) (.claimed 0) else l
    | none => l
  | .cancel id => l.close (fun n _ => n = id) (.abandoned now)
  | .expire => l.close (fun _ call => CallTable.Due now call) (.abandoned now)
  | .nextDeadline => l
  | .clear => l.close (fun _ _ => True) .dropped

def recordAll (l : Ledger) (history : CallHistory) : Ledger :=
  history.foldl (fun l item => l.record item.1 item.2) l

/-! ### Entries -/

variable {l : Ledger} {n : Nat} {call : Call} {standing : Standing}

theorem enter_entry {new : Call} (unissued : l.entry (l.issued + 1) = none) :
    (l.enter new).entry n = some (call, standing) ↔
      l.entry n = some (call, standing) ∨
        n = l.issued + 1 ∧ call = new ∧ standing = .outstanding := by
  by_cases same : n = l.issued + 1
  · subst same
    simp [enter, unissued, eq_comm]
  · simp [enter, same]

theorem close_entry {which : Nat → Call → Prop} [∀ n call, Decidable (which n call)]
    {closed : Standing} :
    (l.close which closed).entry n = some (call, standing) ↔
      l.entry n = some (call, standing) ∧ ¬ (standing = .outstanding ∧ which n call) ∨
        standing = closed ∧ l.entry n = some (call, .outstanding) ∧ which n call := by
  simp only [close]
  cases held : l.entry n with
  | none => simp
  | some e =>
      obtain ⟨own, before⟩ := e
      by_cases ends : before = .outstanding ∧ which n own
      · obtain ⟨rfl, chosen⟩ := ends
        rw [Option.map_some, if_pos ⟨rfl, chosen⟩]
        simp only [Option.some.injEq, Prod.mk.injEq]
        constructor
        · rintro ⟨rfl, rfl⟩
          exact .inr ⟨rfl, ⟨rfl, trivial⟩, chosen⟩
        · rintro (⟨⟨rfl, rfl⟩, not_ended⟩ | ⟨rfl, ⟨rfl, -⟩, -⟩)
          · exact absurd ⟨rfl, chosen⟩ not_ended
          · exact ⟨rfl, rfl⟩
      · simp only [Option.map_some, ends, if_false, Option.some.injEq, Prod.mk.injEq]
        constructor
        · rintro ⟨rfl, rfl⟩
          exact .inl ⟨⟨rfl, rfl⟩, ends⟩
        · rintro (⟨same, -⟩ | ⟨-, ⟨rfl, rfl⟩, chosen⟩)
          · exact same
          · exact absurd ⟨rfl, chosen⟩ ends

/-- An entry stays as it is unless it is one of those whose wait ends. -/
theorem close_spared {which : Nat → Call → Prop} [∀ n call, Decidable (which n call)] {n : Nat}
    (spared : ∀ call, l.entry n = some (call, .outstanding) → ¬ which n call) (closed : Standing) :
    (l.close which closed).entry n = l.entry n := by
  simp only [close]
  rcases held : l.entry n with _ | ⟨call, before⟩
  · rfl
  · have open_ : ¬ (before = .outstanding ∧ which n call) := by
      rintro ⟨rfl, chosen⟩
      exact spared call held chosen
    rw [Option.map_some, if_neg open_]

theorem close_none {which : Nat → Call → Prop} [∀ n call, Decidable (which n call)]
    (untouched : ∀ n call, l.entry n = some (call, .outstanding) → ¬ which n call) (closed : Standing) :
    l.close which closed = l := by
  have same : (l.close which closed).entry = l.entry :=
    funext fun n => close_spared (untouched n) closed
  cases l
  exact congrArg _ same

theorem entry_only {m : Nat} {own : Call} (entered : l.entry n = some (call, .outstanding)) :
    l.entry m = some (own, .outstanding) ∧ m = n ↔ m = n ∧ own = call := by
  constructor
  · rintro ⟨found, rfl⟩
    exact ⟨rfl, congrArg Prod.fst (Option.some.inj (found.symm.trans entered))⟩
  · rintro ⟨rfl, rfl⟩
    exact ⟨entered, rfl⟩

theorem age_entry (unclaimed : ∀ later, standing ≠ .claimed later) :
    l.age.entry n = some (call, standing) ↔ l.entry n = some (call, standing) := by
  simp only [age]
  rcases held : l.entry n with _ | ⟨own, _ | later | since | _⟩
  · rfl
  · rfl
  · simp only [Option.map_some, Option.some.injEq, Prod.mk.injEq]
    exact ⟨fun ⟨_, same⟩ => absurd same.symm (unclaimed _),
      fun ⟨_, same⟩ => absurd same.symm (unclaimed _)⟩
  · rfl
  · rfl

theorem age_entry_claimed (later : Nat) :
    l.age.entry n = some (call, .claimed later) ↔
      ∃ before, later = before + 1 ∧ l.entry n = some (call, .claimed before) := by
  simp only [age]
  rcases held : l.entry n with _ | ⟨own, _ | before | since | _⟩
  · simp
  · simp
  · simp only [Option.map_some, Option.some.injEq, Prod.mk.injEq, Standing.claimed.injEq]
    constructor
    · rintro ⟨rfl, rfl⟩
      exact ⟨before, rfl, rfl, rfl⟩
    · rintro ⟨_, rfl, rfl, rfl⟩
      exact ⟨rfl, rfl⟩
  · simp
  · simp

theorem awaits_iff : l.awaits n = true ↔ ∃ call, l.entry n = some (call, .outstanding) := by
  simp only [awaits]
  rcases held : l.entry n with _ | ⟨own, standing⟩
  · simp
  · simp

end Ledger

/-! ### Tables that keep a ledger -/

namespace CallTable

variable {window : Nat} {now later : Time} {t rest : CallTable} {l : Ledger}

/-- The numbers given out and the calls outstanding are those of the ledger. -/
structure Mirrors (t : CallTable) (l : Ledger) : Prop where
  sound : t.Sound
  punctual : t.Punctual
  next : t.next = l.issued + 1
  unissued : ∀ n, l.issued < n → l.entry n = none
  outstanding : ∀ n call, t.call? n = some call ↔ l.entry n = some (call, .outstanding)

/-- What a table remembers of the calls that are over is what the ledger says of them. -/
structure Kept (window : Nat) (now : Time) (t : CallTable) (l : Ledger) : Prop extends Mirrors t l where
  own : t.window = window
  quarantined : Quarantined window now t.quarantine fun n call since =>
    l.entry n = some (call, .abandoned since)
  remembered : Remembered t.answered fun n call later => l.entry n = some (call, .claimed later)

theorem fresh_kept (quarantine : Span) :
    Kept (min quarantine.nanos greatestWindow.nanos) 0 (fresh quarantine) .blank where
  sound := fresh_sound quarantine
  punctual := fresh_punctual quarantine
  next := rfl
  unissued _ _ := rfl
  outstanding _ _ := ⟨fun held => (nomatch held), fun held => (nomatch held)⟩
  own := rfl
  quarantined := (Quarantined.nil _ _).congr fun _ _ _ => by simp [Ledger.blank]
  remembered := Remembered.nil.congr fun _ _ _ => by simp [Ledger.blank]

theorem Kept.mono (kept : Kept window now t l) (order : now ≤ later) : Kept window later t l :=
  { kept with quarantined := kept.quarantined.mono order }

theorem Mirrors.enter (mirrors : Mirrors t l) (now : Time) (method : String) (timeout : Option Span) :
    Mirrors (t.insert now method timeout).2 (l.enter ⟨method, timeout, deadlineAfter now timeout⟩) where
  sound := insert_sound mirrors.sound now method timeout
  punctual := mirrors.punctual.insert now method timeout
  next := congrArg (· + 1) mirrors.next
  unissued n above := by
    have above : l.issued + 1 < n := above
    have new : n ≠ l.issued + 1 := Nat.ne_of_gt above
    simp only [Ledger.enter, new, if_false]
    exact mirrors.unissued n (Nat.lt_of_succ_lt above)
  outstanding n call := by
    rw [Ledger.enter_entry (mirrors.unissued _ (Nat.lt_succ_self _)), ← mirrors.outstanding, call?,
      insert_calls, find?, mirrors.next]
    by_cases same : n = l.issued + 1
    · subst same
      have absent : t.call? (l.issued + 1) = none := by
        rw [call?_eq_none_iff, ← mirrors.next]
        exact fun held => absurd (mirrors.sound.given _ held) (Nat.lt_irrefl _)
      simp [absent, eq_comm]
    · simp [same, Ne.symm same, call?]

/-- Outstanding calls whose entries are closed are taken out of the table. -/
theorem Mirrors.close (mirrors : Mirrors t l) {which : Nat → Call → Prop}
    [∀ n call, Decidable (which n call)] {closed : Standing} (ended : closed ≠ .outstanding)
    (within : rest.Within t) (punctual : rest.Punctual)
    (left : ∀ n call, rest.call? n = some call ↔ t.call? n = some call ∧ ¬ which n call) :
    Mirrors rest (l.close which closed) where
  sound := within.sound mirrors.sound
  punctual := punctual
  next := within.next.trans mirrors.next
  unissued n above := by
    simp only [Ledger.close, mirrors.unissued n above, Option.map_none]
  outstanding n call := by
    rw [left, mirrors.outstanding, Ledger.close_entry]
    simp [Ne.symm ended]

theorem Mirrors.age (mirrors : Mirrors t l) : Mirrors t l.age where
  sound := mirrors.sound
  punctual := mirrors.punctual
  next := mirrors.next
  unissued n above := by
    simp only [Ledger.age, mirrors.unissued n above, Option.map_none]
  outstanding n call := by
    rw [Ledger.age_entry (by simp), mirrors.outstanding]

/-- The ledger says nothing of the queue. -/
theorem Mirrors.same (mirrors : Mirrors t l) (next : rest.next = t.next) (calls : rest.calls = t.calls)
    (punctual : rest.Punctual) : Mirrors rest l where
  sound := Within.sound ⟨next, calls ▸ List.Sublist.refl _⟩ mirrors.sound
  punctual := punctual
  next := next.trans mirrors.next
  unissued := mirrors.unissued
  outstanding n call := by rw [call?, calls, ← mirrors.outstanding, call?]

/-! ### Operations -/

theorem Kept.insert (kept : Kept window now t l) (method : String) (timeout : Option Span) :
    Kept window now (t.insert now method timeout).2 (l.record now (.insert method timeout)) := by
  have unissued := kept.unissued _ (Nat.lt_succ_self _)
  refine { kept.toMirrors.enter now method timeout with own := kept.own, quarantined := ?_, remembered := ?_ }
  · exact kept.quarantined.congr fun n call since => by
      simp [Ledger.record, Ledger.enter_entry unissued]
  · exact kept.remembered.congr fun n call later => by
      simp [Ledger.record, Ledger.enter_entry unissued]

theorem call?_of_without {n id : Nat} {call : Call} (calls : rest.calls = without id t.calls) :
    rest.call? n = some call ↔ t.call? n = some call ∧ ¬ n = id := by
  rw [call?, calls, find?_without]
  by_cases same : n = id <;> simp [same, call?]

/-- Nothing is remembered of calls that are dropped. -/
theorem Kept.drop (kept : Kept window now t l) {which : Nat → Call → Prop}
    [∀ n call, Decidable (which n call)] (mirrors : Mirrors rest (l.close which .dropped))
    (own : rest.window = t.window) (quarantine : rest.quarantine = t.quarantine)
    (answered : rest.answered = t.answered) : Kept window now rest (l.close which .dropped) := by
  refine { mirrors with own := own.trans kept.own, quarantined := ?_, remembered := ?_ }
  · rw [quarantine]
    exact kept.quarantined.congr fun n call since => by simp [Ledger.close_entry]
  · rw [answered]
    exact kept.remembered.congr fun n call later => by simp [Ledger.close_entry]

theorem Kept.forget (kept : Kept window now t l) (id : Nat) :
    Kept window now (t.forget id) (l.record now (.forget id)) := by
  have within : (t.forget id).Within t := ⟨rfl, List.filter_sublist⟩
  have mirrors : Mirrors (t.forget id) (l.close (fun n _ => n = id) .dropped) :=
    kept.toMirrors.close (by simp) within (kept.punctual.forget id) fun n call => call?_of_without rfl
  exact kept.drop mirrors rfl rfl rfl

theorem Kept.clear (kept : Kept window now t l) : Kept window now t.clear (l.record now .clear) := by
  have left : ∀ n call, t.clear.call? n = some call ↔ t.call? n = some call ∧ ¬ True :=
    fun n call => ⟨fun held => (nomatch held), fun held => absurd trivial held.2⟩
  exact kept.drop (kept.toMirrors.close (by simp) t.clear_within .clear left) rfl rfl rfl

theorem Kept.nextDeadline (kept : Kept window now t l) : Kept window now t.nextDeadline.2 l := by
  have mirrors : Mirrors t.nextDeadline.2 l :=
    kept.toMirrors.same rfl rfl kept.punctual.nextDeadline
  exact { mirrors with own := kept.own, quarantined := kept.quarantined, remembered := kept.remembered }

theorem Kept.release (kept : Kept window now t l) : Kept window now (t.release now) l := by
  have mirrors : Mirrors (t.release now) l :=
    kept.toMirrors.same rfl rfl ⟨kept.punctual.ordered, kept.punctual.queued⟩
  exact { mirrors with
    own := kept.own, quarantined := kept.quarantined.release, remembered := kept.remembered }

theorem Kept.claim (kept : Kept window now t l) {n : Nat} {call : Call}
    (held : t.call? n = some call) :
    Kept window now ({ t with calls := without n t.calls }.rememberAnswered n call.method)
      (l.age.close (fun m _ => m = n) (.claimed 0)) := by
  have entered := (kept.outstanding n call).mp held
  have within : ({ t with calls := without n t.calls }.rememberAnswered n call.method).Within t :=
    ⟨rfl, List.filter_sublist⟩
  have mirrors : Mirrors ({ t with calls := without n t.calls }.rememberAnswered n call.method)
      (l.age.close (fun m _ => m = n) (.claimed 0)) :=
    kept.toMirrors.age.close (by simp) within (kept.punctual.without n rfl rfl)
      fun m own => call?_of_without rfl
  refine { mirrors with
    own := kept.own, quarantined := ?_, remembered := ?_ }
  · exact kept.quarantined.congr fun m own since => by
      simp [Ledger.close_entry, Ledger.age_entry]
  · refine kept.remembered.rememberAnswered (fun m own => ?_) fun m own later => ?_
    · simp [Ledger.close_entry, Ledger.age_entry_claimed, Ledger.age_entry, Ledger.entry_only entered]
    · simp [Ledger.close_entry, Ledger.age_entry_claimed]

/-- An answer to no call in particular is looked up in vain. -/
theorem takeForResponse_of_text (t : CallTable) (now : Time) {id : Rpc.Id} (none : number? id = none) :
    (t.takeForResponse now id).1 = .unknown ∧
      ((t.takeForResponse now id).2 = t ∨ (t.takeForResponse now id).2 = t.release now) := by
  unfold takeForResponse
  split
  · exact ⟨rfl, .inl rfl⟩
  · rw [none]
    exact ⟨rfl, .inr rfl⟩

theorem Kept.take (kept : Kept window now t l) (id : Rpc.Id) :
    Kept window now (t.takeForResponse now id).2 (l.record now (.take id)) := by
  cases number : number? id with
  | none =>
      have recorded : l.record now (.take id) = l := by simp only [Ledger.record, number]
      rw [recorded]
      obtain ⟨-, same | released⟩ := takeForResponse_of_text t now number
      · rwa [same]
      · rw [released]
        exact kept.release
  | some n =>
      obtain rfl := number?_eq_some number
      rw [takeForResponse_number t now n]
      simp only [Ledger.record, number]
      cases held : t.call? n with
      | some call =>
          have awaited : l.awaits n = true := Ledger.awaits_iff.mpr ⟨call, (kept.outstanding n call).mp held⟩
          rw [if_pos awaited]
          exact kept.claim held
      | none =>
          have ended : ¬ l.awaits n = true := by
            rw [Ledger.awaits_iff]
            rintro ⟨call, entered⟩
            rw [← kept.outstanding, held] at entered
            cases entered
          rw [if_neg ended]
          exact kept.release

theorem Kept.cancel (kept : Kept window now t l) (id : Nat) :
    Kept window now (t.operate now (.cancel id)) (l.record now (.cancel id)) := by
  cases cancelled : t.cancel now id with
  | none =>
      have absent : t.call? id = none := Option.map_eq_none_iff.mp cancelled
      have recorded : l.close (fun n _ => n = id) (.abandoned now) = l := by
        refine Ledger.close_none (fun n call entered same => ?_) _
        rw [← kept.outstanding, same, absent] at entered
        cases entered
      simpa only [operate, Ledger.record, cancelled, recorded, Option.map_none, Option.getD_none]
        using kept
  | some result =>
      obtain ⟨call, rest⟩ := result
      have taken : t.Taken id call rest := cancel_taken cancelled
      obtain ⟨quarantine, same, answered⟩ := cancel_quarantine cancelled
      have entered := (kept.outstanding id call).mp taken.held
      simp only [operate, cancelled, Option.map_some, Option.getD_some]
      refine { kept.toMirrors.close (by simp) taken.within (kept.punctual.cancel cancelled) ?_ with
        own := same.trans kept.own, quarantined := ?_, remembered := ?_ }
      · exact fun n own => taken.call?_eq_some.trans and_comm
      · rw [quarantine, kept.own]
        refine (kept.quarantined.abandon (by simp [entered]) call).congr fun n own since => ?_
        simp [Ledger.record, Ledger.close_entry, Ledger.entry_only entered, and_comm,
          and_left_comm]
      · rw [answered]
        exact kept.remembered.congr fun n own later => by
          simp [Ledger.record, Ledger.close_entry]

theorem Kept.expire (kept : Kept window now t l) :
    Kept window now (t.expire now).2 (l.record now .expire) := by
  have drawn := expireFrom_drawn now t.deadlines t
  obtain ⟨same, answered⟩ := expireFrom_memory now t.deadlines t
  have gone := kept.quarantined.expireFrom kept.own (fun n call held => by
    rw [kept.outstanding] at held
    simp [held]) t.deadlines
  refine { kept.toMirrors.close (by simp) drawn.within (kept.punctual.expire now) ?_ with
    own := same.trans kept.own, quarantined := ?_, remembered := ?_ }
  · exact fun n call => kept.punctual.call?_expire
  · refine gone.congr fun n call since => ?_
    have expired : (t.call? n = some call ∧ (t.expire now).2.call? n = none) ↔
        t.call? n = some call ∧ Due now call := by
      refine and_congr_right fun held => ⟨fun lost => ?_, fun due => ?_⟩
      · by_contra open_
        cases lost.symm.trans (kept.punctual.call?_expire.mpr ⟨held, open_⟩)
      · refine Option.eq_none_iff_forall_ne_some.mpr fun own there => ?_
        obtain ⟨held', open_⟩ := kept.punctual.call?_expire.mp there
        cases held.symm.trans held'
        exact open_ due
    rw [show CallTable.expireFrom now t.deadlines t = t.expire now from rfl, expired, kept.outstanding]
    simp [Ledger.record, Ledger.close_entry]
  · rw [show (t.expire now).2.answered = t.answered from answered]
    exact kept.remembered.congr fun n own later => by
      simp [Ledger.record, Ledger.close_entry]

/-- Whatever is done with a table, it goes on to keep the ledger. -/
theorem Kept.operate (kept : Kept window now t l) (operation : Operation) :
    Kept window now (t.operate now operation) (l.record now operation) := by
  cases operation with
  | insert method timeout => exact kept.insert method timeout
  | forget id => exact kept.forget id
  | take id => exact kept.take id
  | cancel id => exact kept.cancel id
  | expire => exact kept.expire
  | nextDeadline => exact kept.nextDeadline
  | clear => exact kept.clear

theorem Kept.operateAll (kept : Kept window now t l) {history : CallHistory}
    (ordered : Timed now history later) :
    Kept window later (t.operateAll history) (l.recordAll history) := by
  induction history generalizing now t l with
  | nil => exact kept.mono ordered
  | cons item rest ih => exact ih ((kept.mono ordered.1).operate item.2) ordered.2

/-- What a lookup that comes now answers by a ledger: what its entry says, and nothing without one. -/
def Rules (window : Nat) (now : Time) (l : Ledger) (id : Rpc.Id) (found : Lookup) : Prop :=
  (found = .unknown ∧ ∀ n entry, number? id = some n → l.entry n ≠ some entry) ∨
    ∃ n call standing, number? id = some n ∧ l.entry n = some (call, standing) ∧
      found = standing.ruling window now n call

theorem Kept.call?_eq_none (kept : Kept window now t l) {n : Nat}
    (unawaited : ∀ call, l.entry n ≠ some (call, .outstanding)) : t.call? n = none :=
  Option.eq_none_iff_forall_ne_some.mpr fun call held =>
    unawaited call ((kept.outstanding n call).mp held)

theorem Kept.quarantine_eq_none (kept : Kept window now t l) {n : Nat}
    (free : ∀ call since, l.entry n ≠ some (call, .abandoned since)) :
    find? n (t.release now).quarantine = none :=
  kept.release.quarantined.find?_eq_none free

theorem Kept.quarantine_eq (kept : Kept window now t l) {n : Nat} {call : Call} {since : Time}
    (entered : l.entry n = some (call, .abandoned since)) :
    find? n (t.release now).quarantine =
      if now < since + window then some ⟨call.method, since + window⟩ else none := by
  refine kept.quarantined.find?_release (fun n call since call' since' one other => ?_) entered
  rw [one] at other
  simpa using other

theorem Kept.answered_eq_none (kept : Kept window now t l) {n : Nat}
    (unclaimed : ∀ call later, l.entry n ≠ some (call, .claimed later)) :
    find? n (t.release now).answered = none :=
  kept.remembered.find?_eq_none unclaimed

theorem Kept.answered_eq (kept : Kept window now t l) {n : Nat} {call : Call} {later : Nat}
    (entered : l.entry n = some (call, .claimed later)) :
    find? n (t.release now).answered = if later < greatestHistory then some call.method else none := by
  refine kept.remembered.find? (fun n call later call' later' one other => ?_) entered
  rw [one] at other
  simpa using other

/-- A table that keeps a ledger answers as the ledger says. -/
theorem Kept.rules (kept : Kept window now t l) (id : Rpc.Id) :
    Rules window now l id (t.takeForResponse now id).1 := by
  cases number : number? id with
  | none =>
      refine .inl ⟨(takeForResponse_of_text t now number).1, fun n entry same => ?_⟩
      cases number.symm.trans same
  | some n =>
      obtain rfl := number?_eq_some number
      rw [takeForResponse_number t now n]
      rcases entered : l.entry n with _ | ⟨call, standing⟩
      · rw [kept.call?_eq_none (by simp [entered])]
        simp only [CallTable.remembered, kept.quarantine_eq_none (n := n) (by simp [entered]),
          kept.answered_eq_none (n := n) (by simp [entered])]
        refine .inl ⟨rfl, fun m entry same => ?_⟩
        obtain rfl := Option.some.inj (number.symm.trans same)
        simp [entered]
      · refine .inr ⟨n, call, standing, number, entered, ?_⟩
        cases standing with
        | outstanding =>
            rw [(kept.outstanding n call).mpr entered]
            rfl
        | claimed later =>
            rw [kept.call?_eq_none (by simp [entered])]
            simp only [CallTable.remembered, kept.quarantine_eq_none (n := n) (by simp [entered]),
              kept.answered_eq entered, Standing.ruling]
            by_cases recent : later < greatestHistory
            · simp only [if_pos recent]
            · simp only [if_neg recent]
        | abandoned since =>
            rw [kept.call?_eq_none (by simp [entered])]
            simp only [CallTable.remembered, kept.answered_eq_none (n := n) (by simp [entered]),
              kept.quarantine_eq entered, Standing.ruling]
            by_cases waits : now < since + window
            · simp only [if_pos waits]
            · simp only [if_neg waits]
        | dropped =>
            rw [kept.call?_eq_none (by simp [entered])]
            simp only [CallTable.remembered, kept.quarantine_eq_none (n := n) (by simp [entered]),
              kept.answered_eq_none (n := n) (by simp [entered]), Standing.ruling]

theorem Rules.of_entry {id : Rpc.Id} {found : Lookup} (rules : Rules window now l id found) {n : Nat}
    {call : Call} {standing : Standing} (number : number? id = some n)
    (entered : l.entry n = some (call, standing)) : found = standing.ruling window now n call := by
  rcases rules with ⟨-, blank⟩ | ⟨m, own, before, number', entered', same⟩
  · exact absurd entered (blank n _ number)
  · obtain rfl := Option.some.inj (number.symm.trans number')
    obtain ⟨rfl, rfl⟩ := Prod.mk.inj (Option.some.inj (entered.symm.trans entered'))
    exact same

theorem Rules.eq_iff {id : Rpc.Id} {found answer : Lookup} (rules : Rules window now l id found)
    (known : answer ≠ .unknown) : found = answer ↔
      ∃ n call standing, number? id = some n ∧ l.entry n = some (call, standing) ∧
        standing.ruling window now n call = answer := by
  constructor
  · rintro rfl
    rcases rules with ⟨same, -⟩ | ⟨n, call, standing, number, entered, same⟩
    · exact absurd same known
    · exact ⟨n, call, standing, number, entered, same.symm⟩
  · rintro ⟨n, call, standing, number, entered, rfl⟩
    exact rules.of_entry number entered

theorem Rules.unknown_iff {id : Rpc.Id} {found : Lookup} (rules : Rules window now l id found) :
    found = .unknown ↔ ∀ n call standing, number? id = some n → l.entry n = some (call, standing) →
      standing.ruling window now n call = .unknown := by
  constructor
  · intro unknown n call standing number entered
    rw [← rules.of_entry number entered, unknown]
  · intro all
    rcases rules with ⟨same, -⟩ | ⟨n, call, standing, number, entered, same⟩
    · exact same
    · rw [same, all n call standing number entered]

/-- A lookup goes by nothing but the entry of its number. -/
theorem Rules.eq_of_entry {m : Ledger} {id : Rpc.Id} {found other : Lookup}
    (rules : Rules window now l id found) (others : Rules window now m id other)
    (same : ∀ n, number? id = some n → m.entry n = l.entry n) : other = found := by
  rcases rules with ⟨rfl, blank⟩ | ⟨n, call, standing, number, entered, rfl⟩
  · refine others.unknown_iff.mpr fun n call standing number entered => ?_
    rw [same n number] at entered
    exact absurd entered (blank n _ number)
  · exact others.of_entry number ((same n number).trans entered)

/-! ### What lookups do to later ones -/

theorem Agree.operate {u : CallTable} (h : Agree now t u) (operation : Operation) :
    Agree now (t.operate now operation) (u.operate now operation) := by
  cases operation with
  | insert method timeout => exact (h.insert now method timeout).2
  | forget id => exact h.forget id
  | take id => exact (h.takeForResponse id).2
  | cancel id =>
      simp only [CallTable.operate, h.cancel]
      cases t.cancel now id with
      | none => exact h
      | some result => exact .refl now _
  | expire => exact h.expire.2
  | nextDeadline => exact h.nextDeadline.2
  | clear => exact h.clear

theorem Agree.operateAll {u : CallTable} (h : Agree now t u) {history : CallHistory}
    (ordered : Timed now history later) : Agree later (t.operateAll history) (u.operateAll history) := by
  induction history generalizing now t u with
  | nil => exact h.mono ordered
  | cons item rest ih => exact ih ((h.mono ordered.1).operate item.2) ordered.2

/-- What a response that arrives after a history is taken for. -/
def answer (quarantine : Span) (history : CallHistory) (now : Time) (id : Rpc.Id) : Lookup :=
  (((fresh quarantine).operateAll history).takeForResponse now id).1

/-- What the answer to a lookup says of the history before it, and does to those after it. -/
structure Classified (quarantine : Span) (history : CallHistory) (now : Time) (id : Rpc.Id) : Prop where
  outstanding : ∀ n call, answer quarantine history now id = .outstanding n call ↔
    number? id = some n ∧ (Ledger.blank.recordAll history).entry n = some (call, .outstanding)
  late : ∀ method, answer quarantine history now id = .late method ↔
    ∃ n call since, number? id = some n ∧
      (Ledger.blank.recordAll history).entry n = some (call, .abandoned since) ∧
      now < since + min quarantine.nanos greatestWindow.nanos ∧ call.method = method
  duplicate : ∀ method, answer quarantine history now id = .duplicate method ↔
    ∃ n call later, number? id = some n ∧
      (Ledger.blank.recordAll history).entry n = some (call, .claimed later) ∧
      later < 1024 ∧ call.method = method
  unknown : answer quarantine history now id = .unknown ↔
    ∀ n call standing, number? id = some n →
      (Ledger.blank.recordAll history).entry n = some (call, standing) →
      standing = .dropped ∨
        (∃ since, standing = .abandoned since ∧
          since + min quarantine.nanos greatestWindow.nanos ≤ now) ∨
        ∃ later, standing = .claimed later ∧ 1024 ≤ later
  /-- Only a lookup that claims a call shows in later ones. -/
  silent : (∀ n call, answer quarantine history now id ≠ .outstanding n call) →
    ∀ more later other, Timed now more later →
      answer quarantine (history ++ (now, .take id) :: more) later other =
        answer quarantine (history ++ more) later other

/-- After every history of a table, a response is taken for what the ledger makes of its id. -/
theorem classified (quarantine : Span) (history : CallHistory) (now : Time) (id : Rpc.Id)
    (ordered : Timed 0 history now) : Classified quarantine history now id := by
  have kept := (fresh_kept quarantine).operateAll ordered
  have rules : Rules _ now _ id (answer quarantine history now id) := kept.rules id
  refine ⟨fun n call => ?_, fun method => ?_, fun method => ?_, ?_,
    fun unmatched more later other ordered => ?_⟩
  · rw [rules.eq_iff (by simp)]
    simp only [Standing.ruling_outstanding]
    constructor
    · rintro ⟨n, call, standing, number, entered, rfl, rfl, rfl⟩
      exact ⟨number, entered⟩
    · rintro ⟨number, entered⟩
      exact ⟨n, call, .outstanding, number, entered, rfl, rfl, rfl⟩
  · rw [rules.eq_iff (by simp)]
    simp only [Standing.ruling_late]
    constructor
    · rintro ⟨n, call, standing, number, entered, since, rfl, waits, same⟩
      exact ⟨n, call, since, number, entered, waits, same⟩
    · rintro ⟨n, call, since, number, entered, waits, same⟩
      exact ⟨n, call, _, number, entered, since, rfl, waits, same⟩
  · rw [rules.eq_iff (by simp)]
    simp only [Standing.ruling_duplicate]
    constructor
    · rintro ⟨n, call, standing, number, entered, later, rfl, recent, same⟩
      exact ⟨n, call, later, number, entered, recent, same⟩
    · rintro ⟨n, call, later, number, entered, recent, same⟩
      exact ⟨n, call, _, number, entered, later, rfl, recent, same⟩
  · simp only [rules.unknown_iff, Standing.ruling_unknown]
  · have silent := takeForResponse_agree (Prod.ext rfl rfl) unmatched
    have later_agree := (silent.operateAll ordered).takeForResponse other
    simp only [answer, operateAll, List.foldl_append]
    exact later_agree.1

/-- A call cancelled at 5 is waited for late until half a minute has passed, and no longer. -/
theorem classified_late :
    let history : CallHistory := [(0, .insert "hover" none), (5, .cancel 1)]
    Timed 0 history 30000000004 ∧ Timed 0 history 30000000005 ∧
      answer (.ofSeconds 30) history 30000000004 (.number 1) = .late "hover" ∧
      answer (.ofSeconds 30) history 30000000005 (.number 1) = .unknown := by
  intro history
  have before : Timed 0 history 30000000004 := by simp [Timed, history]
  have after : Timed 0 history 30000000005 := by simp [Timed, history]
  refine ⟨before, after, ?_, ?_⟩
  · have known := classified (.ofSeconds 30) history _ (.number 1) before
    exact (known.late "hover").mpr ⟨1, ⟨"hover", none, none⟩, 5, rfl, rfl, by decide, rfl⟩
  · have known := classified (.ofSeconds 30) history _ (.number 1) after
    refine known.unknown.mpr fun n call standing number entered => ?_
    obtain rfl := Option.some.inj number
    obtain ⟨-, rfl⟩ := Prod.mk.inj (Option.some.inj entered)
    exact .inr (.inl ⟨5, rfl, by decide⟩)

end CallTable

end ServerProbe
