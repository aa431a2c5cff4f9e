import ServerProbe.Call.Table
/-!
What each operation on a table of calls does to the calls that are outstanding.
-/

namespace ServerProbe.CallTable

def ids (t : CallTable) : List Nat := t.calls.map Prod.fst

theorem outstanding_eq (t : CallTable) : t.outstanding = t.ids.reverse := rfl

/-- No id stands for two outstanding calls, and each has been given out. -/
structure Sound (t : CallTable) : Prop where
  distinct : t.ids.Nodup
  given : ∀ id ∈ t.ids, id < t.next

theorem fresh_sound (quarantine : Span) : (fresh quarantine).Sound :=
  ⟨List.nodup_nil, fun _ h => by cases h⟩

/-! ### Lookups -/

theorem mem_of_find? {α : Type} {id : Nat} {v : α} :
    ∀ {entries : List (Nat × α)}, find? id entries = some v → (id, v) ∈ entries
  | [], h => by cases h
  | (k, w) :: rest, h => by
      unfold find? at h
      split at h
      · rename_i same
        rw [← eq_of_beq same, Option.some.inj h]
        exact List.mem_cons_self
      · exact List.mem_cons_of_mem _ (mem_of_find? h)

theorem mem_keys {α : Type} {e : Nat × α} {entries : List (Nat × α)} (h : e ∈ entries) :
    e.1 ∈ entries.map Prod.fst := List.mem_map_of_mem h

theorem find?_of_mem {α : Type} {id : Nat} {v : α} :
    ∀ {entries : List (Nat × α)}, (entries.map Prod.fst).Nodup → (id, v) ∈ entries →
      find? id entries = some v
  | [], _, held => by cases held
  | (k, w) :: rest, distinct, held => by
      obtain ⟨new, distinct⟩ := List.nodup_cons.mp distinct
      unfold find?
      rcases List.mem_cons.mp held with same | later
      · obtain ⟨rfl, rfl⟩ := Prod.mk.inj same
        rw [if_pos (beq_self_eq_true id)]
      · have other : ¬ (k == id) = true := by
          intro same
          have used := mem_keys later
          exact new (eq_of_beq same ▸ used)
        rw [if_neg other]
        exact find?_of_mem distinct later

theorem find?_eq_none_iff {α : Type} {id : Nat} :
    ∀ {entries : List (Nat × α)}, find? id entries = none ↔ id ∉ entries.map Prod.fst
  | [] => by simp [find?]
  | (k, w) :: rest => by
      unfold find?
      by_cases same : k = id
      · simp [same]
      · simp [same, find?_eq_none_iff, Ne.symm same]

theorem call?_eq_none_iff {t : CallTable} {id : Nat} : t.call? id = none ↔ id ∉ t.ids :=
  find?_eq_none_iff

theorem mem_ids_iff {t : CallTable} {id : Nat} : id ∈ t.ids ↔ ∃ call, t.call? id = some call := by
  rw [← Option.ne_none_iff_exists', ne_eq, call?_eq_none_iff, Classical.not_not]

theorem call?_of_sublist {t u : CallTable} {id : Nat} {call : Call} (distinct : u.ids.Nodup)
    (sub : t.calls.Sublist u.calls) (h : t.call? id = some call) : u.call? id = some call :=
  find?_of_mem distinct (sub.subset (mem_of_find? h))

theorem find?_filter {α : Type} (keep : Nat → Bool) (id : Nat) :
    ∀ entries : List (Nat × α), find? id (entries.filter fun e => keep e.1) =
      if keep id then find? id entries else none
  | [] => by simp [find?]
  | (k, w) :: rest => by
      have ih := find?_filter keep id rest
      by_cases same : k = id
      · subst same
        by_cases kept : keep k = true
        · simp [kept, find?]
        · simp_all
      · by_cases kept : keep k = true
        · simp [kept, find?, same, ih]
        · simp [kept, find?, same, ih]

theorem find?_without {α : Type} (id other : Nat) (entries : List (Nat × α)) :
    find? other (without id entries) = if other != id then find? other entries else none :=
  find?_filter (· != id) other entries

theorem perm_without {α : Type} {id : Nat} {v : α} :
    ∀ {entries : List (Nat × α)}, (entries.map Prod.fst).Nodup → (id, v) ∈ entries →
      entries.Perm ((id, v) :: without id entries)
  | [], _, held => by cases held
  | (k, w) :: rest, distinct, held => by
      obtain ⟨new, distinct⟩ := List.nodup_cons.mp distinct
      rcases List.mem_cons.mp held with same | later
      · obtain ⟨rfl, rfl⟩ := Prod.mk.inj same
        have untouched : without id rest = rest := by
          refine List.filter_eq_self.mpr ?_
          intro e kept
          have other : e.1 ≠ id := by
            intro same
            have used := mem_keys kept
            exact new (same ▸ used)
          simpa only [bne_iff_ne] using other
        have dropped : without id ((id, v) :: rest) = without id rest := by simp [without]
        rw [dropped, untouched]
      · have other : k ≠ id := by
          intro same
          have used := mem_keys later
          exact new (same ▸ used)
        have kept : without id ((k, w) :: rest) = (k, w) :: without id rest := by
          simp [without, other]
        rw [kept]
        exact ((perm_without distinct later).cons (k, w)).trans (List.Perm.swap _ _ _)

/-! ### Operations -/

theorem number?_eq_some {id : Rpc.Id} {n : Nat} (h : number? id = some n) :
    id = .number n := by
  cases id with
  | text s => cases h
  | number value =>
      cases value with
      | negSucc k => cases h
      | ofNat k => exact congrArg (fun m : Nat => Rpc.Id.number m) (Option.some.inj h)

structure Within (t u : CallTable) : Prop where
  next : t.next = u.next
  calls : t.calls.Sublist u.calls

theorem Within.ids {t u : CallTable} (h : t.Within u) : t.ids.Sublist u.ids := h.calls.map Prod.fst

theorem Within.sound {t u : CallTable} (h : t.Within u) (sound : u.Sound) : t.Sound := by
  refine ⟨sound.distinct.sublist h.ids, fun id held => ?_⟩
  rw [h.next]
  exact sound.given id (h.ids.subset held)

/-- What taking a call out of a table does to it. -/
structure Taken (t : CallTable) (id : Nat) (call : Call) (rest : CallTable) : Prop where
  held : t.call? id = some call
  next : rest.next = t.next
  calls : rest.calls = without id t.calls

theorem Taken.within {t rest : CallTable} {id : Nat} {call : Call} (h : t.Taken id call rest) :
    rest.Within t := ⟨h.next, h.calls ▸ List.filter_sublist⟩

theorem Taken.perm {t rest : CallTable} {id : Nat} {call : Call} (h : t.Taken id call rest)
    (sound : t.Sound) : t.calls.Perm ((id, call) :: rest.calls) := by
  rw [h.calls]
  exact perm_without sound.distinct (mem_of_find? h.held)

theorem Taken.perm_ids {t rest : CallTable} {id : Nat} {call : Call} (h : t.Taken id call rest)
    (sound : t.Sound) : t.ids.Perm (id :: rest.ids) := (h.perm sound).map Prod.fst

theorem Taken.call? {t rest : CallTable} {id : Nat} {call : Call} (h : t.Taken id call rest)
    (other : Nat) : rest.call? other = if other != id then t.call? other else none := by
  rw [CallTable.call?, h.calls, find?_without]
  rfl

theorem Taken.call?_eq_some {t rest : CallTable} {id : Nat} {call : Call} (h : t.Taken id call rest)
    {other : Nat} {own : Call} : rest.call? other = some own ↔ other ≠ id ∧ t.call? other = some own := by
  rw [h.call?]
  by_cases same : other = id
  · simp [same]
  · simp [same]

theorem Taken.absent {t rest : CallTable} {id : Nat} {call : Call} (h : t.Taken id call rest) :
    rest.call? id = none := by
  rw [h.call?, bne_self_eq_false]
  rfl

theorem remembered_ne_outstanding (t : CallTable) (id n : Nat) (call : Call) :
    t.remembered id ≠ .outstanding n call := by
  unfold remembered
  split
  · exact fun h => by cases h
  · split <;> exact fun h => by cases h

theorem takeForResponse_taken {t rest : CallTable} {now : Time} {id : Rpc.Id} {n : Nat} {call : Call}
    (h : t.takeForResponse now id = (.outstanding n call, rest)) :
    id = .number n ∧ t.Taken n call rest := by
  unfold takeForResponse at h
  split at h
  · cases h
  · split at h
    · cases h
    · rename_i m number
      split at h
      · rename_i held
        obtain ⟨same, rfl⟩ := Prod.mk.inj h
        obtain ⟨rfl, rfl⟩ := Lookup.outstanding.inj same
        exact ⟨number?_eq_some number, held, rfl, rfl⟩
      · exact absurd (congrArg Prod.fst h) (remembered_ne_outstanding _ m n call)

/-- A response that matches no call leaves all calls as they are. -/
theorem takeForResponse_unmatched {t rest : CallTable} {now : Time} {id : Rpc.Id} {found : Lookup}
    (h : t.takeForResponse now id = (found, rest)) (unmatched : ∀ n call, found ≠ .outstanding n call) :
    rest.calls = t.calls ∧ rest.next = t.next := by
  unfold takeForResponse at h
  split at h
  · obtain ⟨-, rfl⟩ := Prod.mk.inj h
    exact ⟨rfl, rfl⟩
  · split at h
    · obtain ⟨-, rfl⟩ := Prod.mk.inj h
      exact ⟨rfl, rfl⟩
    · split at h
      · exact absurd (congrArg Prod.fst h).symm (unmatched _ _)
      · obtain ⟨-, rfl⟩ := Prod.mk.inj h
        exact ⟨rfl, rfl⟩

theorem takeForResponse_number (t : CallTable) (now : Time) (n : Nat) :
    t.takeForResponse now (.number n) =
      match t.call? n with
      | some call =>
        (.outstanding n call, { t with calls := without n t.calls }.rememberAnswered n call.method)
      | none => ((t.release now).remembered n, t.release now) := rfl

/-- After a response has been looked up, no call with its number is outstanding. -/
theorem takeForResponse_spends (t : CallTable) (now : Time) (n : Nat) :
    (t.takeForResponse now (.number n)).2.call? n = none := by
  cases held : t.call? n with
  | none =>
      have missed : t.takeForResponse now (.number n) = ((t.release now).remembered n, t.release now) := by
        simp only [takeForResponse_number, held]
      rw [missed]
      exact held
  | some call =>
      have matched : (t.takeForResponse now (.number n)).1 = .outstanding n call := by
        simp only [takeForResponse_number, held]
      obtain ⟨-, taken⟩ := takeForResponse_taken (Prod.ext matched rfl)
      exact taken.absent

theorem cancel_taken {t rest : CallTable} {now : Time} {id : Nat} {call : Call}
    (h : t.cancel now id = some (call, rest)) : t.Taken id call rest := by
  obtain ⟨found, held, same⟩ := Option.map_eq_some_iff.mp h
  obtain ⟨rfl, rfl⟩ := Prod.mk.inj same
  exact ⟨held, rfl, rfl⟩

theorem insert_calls (t : CallTable) (now : Time) (method : String) (timeout : Option Span) :
    (t.insert now method timeout).2.calls =
      (t.next, ⟨method, timeout, deadlineAfter now timeout⟩) :: t.calls := rfl

theorem insert_sound {t : CallTable} (sound : t.Sound) (now : Time) (method : String)
    (timeout : Option Span) : (t.insert now method timeout).2.Sound := by
  refine ⟨List.nodup_cons.mpr ⟨fun held => ?_, sound.distinct⟩, fun id held => ?_⟩
  · exact absurd (sound.given _ held) (Nat.lt_irrefl _)
  · rcases List.mem_cons.mp held with rfl | earlier
    · exact Nat.lt_succ_self _
    · exact Nat.lt_succ_of_lt (sound.given id earlier)

/-- A call that is forgotten at once leaves nothing behind but the use of its id. -/
theorem forget_insert_calls {t : CallTable} (sound : t.Sound) (now : Time) (method : String)
    (timeout : Option Span) : ((t.insert now method timeout).2.forget t.next).calls = t.calls := by
  have absent : t.next ∉ t.ids := fun held => absurd (sound.given _ held) (Nat.lt_irrefl _)
  simp only [forget, without, insert_calls, bne_self_eq_false, Bool.false_eq_true,
    not_false_eq_true, List.filter_cons_of_neg]
  refine List.filter_eq_self.mpr fun e held => ?_
  have other : e.1 ≠ t.next := by
    intro same
    have used := mem_keys held
    exact absent (same ▸ used)
  simpa only [bne_iff_ne] using other

/-- The deadline of a call has come. -/
def Due (now : Time) (call : Call) : Prop := ∃ deadline, call.deadline = some deadline ∧ deadline ≤ now

/-- Calls that are due, taken out of a table one after the other. -/
inductive Drawn (now : Time) : CallTable → List (Nat × Call) → CallTable → Prop
  | nil {t rest : CallTable} (next : rest.next = t.next) (calls : rest.calls = t.calls) :
      Drawn now t [] rest
  | cons {t u rest : CallTable} {id : Nat} {call : Call} {others : List (Nat × Call)} :
      t.Taken id call u → Due now call → Drawn now u others rest →
      Drawn now t ((id, call) :: others) rest

theorem Drawn.within {now : Time} {t rest : CallTable} {expired : List (Nat × Call)}
    (h : Drawn now t expired rest) : rest.Within t := by
  induction h with
  | nil next calls => exact ⟨next, calls ▸ List.Sublist.refl _⟩
  | cons taken _ _ ih =>
      exact ⟨ih.next.trans taken.next, ih.calls.trans taken.within.calls⟩

theorem Drawn.perm {now : Time} {t rest : CallTable} {expired : List (Nat × Call)}
    (h : Drawn now t expired rest) (sound : t.Sound) :
    t.calls.Perm (expired ++ rest.calls) := by
  induction h with
  | nil next calls => exact calls ▸ List.Perm.refl _
  | cons taken _ _ ih =>
      exact (taken.perm sound).trans ((ih (taken.within.sound sound)).cons _)

theorem Drawn.perm_ids {now : Time} {t rest : CallTable} {expired : List (Nat × Call)}
    (h : Drawn now t expired rest) (sound : t.Sound) :
    t.ids.Perm (expired.map Prod.fst ++ rest.ids) := by
  have perm := (h.perm sound).map Prod.fst
  rwa [List.map_append] at perm

/-- Every call that is drawn was outstanding and is due. -/
theorem Drawn.held {now : Time} {t rest : CallTable} {expired : List (Nat × Call)}
    (h : Drawn now t expired rest) :
    ∀ e ∈ expired, t.call? e.1 = some e.2 ∧ Due now e.2 := by
  induction h with
  | nil next calls => exact fun e held => by cases held
  | @cons t u rest id call others taken due _ ih =>
      intro e held
      rcases List.mem_cons.mp held with rfl | later
      · exact ⟨taken.held, due⟩
      · obtain ⟨found, due⟩ := ih e later
        rw [taken.call?] at found
        split at found
        · exact ⟨found, due⟩
        · cases found

theorem expireFrom_drawn (now : Time) (queue : List (Time × Nat)) (t : CallTable) :
    Drawn now t (expireFrom now queue t).1 (expireFrom now queue t).2 := by
  induction queue generalizing t with
  | nil => exact .nil rfl rfl
  | cons e queue ih =>
      unfold expireFrom
      split
      · exact .nil rfl rfl
      · rename_i passed
        split
        · rename_i live
          split
          · rename_i call u cancelled
            have taken := cancel_taken cancelled
            refine .cons taken ⟨e.1, ?_, Nat.le_of_not_lt passed⟩ (ih u)
            simp only [isLive, taken.held, beq_iff_eq] at live
            exact live
          · exact ih t
        · exact ih t

theorem expire_drawn {t rest : CallTable} {now : Time} {expired : List (Nat × Call)}
    (h : t.expire now = (expired, rest)) : Drawn now t expired rest := by
  have drawn := expireFrom_drawn now t.deadlines t
  unfold expire at h
  rwa [h] at drawn

theorem clear_within (t : CallTable) : t.clear.Within t := ⟨rfl, List.nil_sublist _⟩

end ServerProbe.CallTable
