import ServerProbe.Proofs.Call.Table
/-!
What a table remembers of calls that are over: those abandoned for as long as the window, and of those
answered the latest ones.
-/

namespace ServerProbe.CallTable

/-! ### The quarantine -/

/-- The quarantine holds calls that were abandoned, and lacks none whose time is not over. -/
structure Quarantined (window : Nat) (now : Time) (quarantine : List (Nat × Abandoned))
    (gone : Nat → Call → Time → Prop) : Prop where
  distinct : (quarantine.map Prod.fst).Nodup
  known : ∀ id a, (id, a) ∈ quarantine → ∃ call since, gone id call since ∧
    a = ⟨call.method, since + window⟩
  held : ∀ id call since, gone id call since → now < since + window →
    (id, ⟨call.method, since + window⟩) ∈ quarantine

namespace Quarantined

variable {window : Nat} {now later : Time} {quarantine : List (Nat × Abandoned)}
  {gone other : Nat → Call → Time → Prop}

theorem nil (window : Nat) (now : Time) : Quarantined window now [] fun _ _ _ => False :=
  ⟨List.nodup_nil, fun _ _ held => (nomatch held), fun _ _ _ left => left.elim⟩

theorem mono (h : Quarantined window now quarantine gone) (order : now ≤ later) :
    Quarantined window later quarantine gone :=
  ⟨h.distinct, h.known, fun id call since left waits =>
    h.held id call since left (Nat.lt_of_le_of_lt order waits)⟩

theorem congr (h : Quarantined window now quarantine gone)
    (same : ∀ id call since, other id call since ↔ gone id call since) :
    Quarantined window now quarantine other := by
  refine ⟨h.distinct, fun id a held => ?_, fun id call since left => ?_⟩
  · obtain ⟨call, since, left, rfl⟩ := h.known id a held
    exact ⟨call, since, (same id call since).mpr left, rfl⟩
  · exact h.held id call since ((same id call since).mp left)

/-- Letting go of what is over changes nothing of what has to be held. -/
theorem release (h : Quarantined window now quarantine gone) :
    Quarantined window now (quarantine.filter fun q => decide (now < q.2.expires)) gone := by
  refine ⟨h.distinct.sublist (List.filter_sublist.map _), fun id a held => ?_,
    fun id call since left waits => ?_⟩
  · exact h.known id a (List.mem_filter.mp held).1
  · exact List.mem_filter.mpr ⟨h.held id call since left waits, decide_eq_true waits⟩

theorem abandon (h : Quarantined window now quarantine gone) {id : Nat}
    (new : ∀ call since, ¬ gone id call since) (call : Call) :
    Quarantined window now
      ((id, ⟨call.method, now + window⟩) ::
        without id (quarantine.filter fun q => decide (now < q.2.expires)))
      fun other own since => gone other own since ∨ other = id ∧ own = call ∧ since = now := by
  have released := h.release
  have rest : (without id (quarantine.filter fun q => decide (now < q.2.expires))).Sublist
      (quarantine.filter fun q => decide (now < q.2.expires)) := List.filter_sublist
  refine ⟨List.nodup_cons.mpr ⟨fun held => ?_, released.distinct.sublist (rest.map _)⟩,
    fun other a held => ?_, fun other own since left waits => ?_⟩
  · obtain ⟨e, held, same⟩ := List.mem_map.mp held
    have apart := (List.mem_filter.mp held).2
    rw [same, bne_self_eq_false] at apart
    cases apart
  · rcases List.mem_cons.mp held with same | before
    · obtain ⟨rfl, rfl⟩ := Prod.mk.inj same
      exact ⟨call, now, .inr ⟨rfl, rfl, rfl⟩, rfl⟩
    · obtain ⟨own, since, left, rfl⟩ := released.known other a (rest.subset before)
      exact ⟨own, since, .inl left, rfl⟩
  · rcases left with before | ⟨rfl, rfl, rfl⟩
    · have apart : other ≠ id := by
        rintro rfl
        exact new own since before
      refine List.mem_cons_of_mem _ (List.mem_filter.mpr ⟨released.held other own since before waits, ?_⟩)
      simpa using apart
    · exact List.mem_cons_self

/-- What is found in the quarantine once it is cleared: the calls whose time is not over. -/
theorem find?_release (h : Quarantined window now quarantine gone)
    (once : ∀ id call since call' since', gone id call since → gone id call' since' →
      call = call' ∧ since = since') {id : Nat} {call : Call} {since : Time}
    (left : gone id call since) :
    find? id (quarantine.filter fun q => decide (now < q.2.expires)) =
      if now < since + window then some ⟨call.method, since + window⟩ else none := by
  have released := h.release
  split
  · rename_i waits
    exact find?_of_mem released.distinct (released.held id call since left waits)
  · rename_i ended
    refine find?_eq_none_iff.mpr fun held => ended ?_
    obtain ⟨⟨key, a⟩, there, rfl⟩ := List.mem_map.mp held
    obtain ⟨call', since', left', rfl⟩ := released.known key a there
    obtain ⟨-, rfl⟩ := once key call since call' since' left left'
    exact of_decide_eq_true (List.mem_filter.mp there).2

theorem find?_eq_none (h : Quarantined window now quarantine gone) {id : Nat}
    (new : ∀ call since, ¬ gone id call since) : find? id quarantine = none := by
  refine find?_eq_none_iff.mpr fun held => ?_
  obtain ⟨⟨key, a⟩, there, rfl⟩ := List.mem_map.mp held
  obtain ⟨call, since, left, -⟩ := h.known key a there
  exact new call since left

end Quarantined

theorem cancel_quarantine {t rest : CallTable} {now : Time} {id : Nat} {call : Call}
    (h : t.cancel now id = some (call, rest)) :
    rest.quarantine = (id, ⟨call.method, now + t.window⟩) ::
        without id (t.quarantine.filter fun q => decide (now < q.2.expires)) ∧
      rest.window = t.window ∧ rest.answered = t.answered := by
  obtain ⟨found, -, same⟩ := Option.map_eq_some_iff.mp h
  obtain ⟨rfl, rfl⟩ := Prod.mk.inj same
  exact ⟨rfl, rfl, rfl⟩

theorem expireFrom_memory (now : Time) (queue : List (Time × Nat)) (t : CallTable) :
    (expireFrom now queue t).2.window = t.window ∧
      (expireFrom now queue t).2.answered = t.answered := by
  induction queue generalizing t with
  | nil => exact ⟨rfl, rfl⟩
  | cons e rest ih =>
      unfold expireFrom
      split
      · exact ⟨rfl, rfl⟩
      · split
        · split
          · rename_i call u cancelled
            obtain ⟨-, window, answered⟩ := cancel_quarantine cancelled
            obtain ⟨window', answered'⟩ := ih u
            exact ⟨window'.trans window, answered'.trans answered⟩
          · exact ih t
        · exact ih t

/-- Where no call is taken out, none is gone that was not before. -/
theorem Quarantined.unless {window : Nat} {now : Time} {t : CallTable}
    {gone : Nat → Call → Time → Prop} (h : Quarantined window now t.quarantine gone) :
    Quarantined window now t.quarantine fun id call since =>
      gone id call since ∨ since = now ∧ t.call? id = some call ∧ t.call? id = none := by
  refine h.congr fun id call since => or_iff_left ?_
  rintro ⟨-, found, lost⟩
  cases found.symm.trans lost

/-- Every call that expires goes into the quarantine. -/
theorem Quarantined.expireFrom {window : Nat} {now : Time} {t : CallTable}
    {gone : Nat → Call → Time → Prop} (h : Quarantined window now t.quarantine gone)
    (own : t.window = window)
    (apart : ∀ id call, t.call? id = some call → ∀ earlier since, ¬ gone id earlier since)
    (queue : List (Time × Nat)) :
    Quarantined window now (CallTable.expireFrom now queue t).2.quarantine fun id call since =>
      gone id call since ∨
        since = now ∧ t.call? id = some call ∧ (CallTable.expireFrom now queue t).2.call? id = none := by
  induction queue generalizing t gone with
  | nil => exact h.unless
  | cons e rest ih =>
      unfold CallTable.expireFrom
      split
      · exact h.unless
      · split
        · split
          · rename_i call u cancelled
            have taken : t.Taken e.2 call u := cancel_taken cancelled
            obtain ⟨quarantine, same, -⟩ := cancel_quarantine cancelled
            have more := h.abandon (apart e.2 call taken.held) call
            rw [← own, ← quarantine, own] at more
            have removed : (CallTable.expireFrom now rest u).2.call? e.2 = none := by
              have kept := (expireFrom_drawn now rest u).within.ids
              refine call?_eq_none_iff.mpr fun held => ?_
              exact call?_eq_none_iff.mp taken.absent (kept.subset held)
            have later := ih more (same.trans own) fun id c held => ?_
            · refine later.congr fun id c since => ⟨?_, ?_⟩
              · rintro (before | ⟨now_, found, lost⟩)
                · exact .inl (.inl before)
                · by_cases own' : id = e.2
                  · subst own'
                    exact .inl (.inr ⟨rfl, Option.some.inj (found.symm.trans taken.held), now_⟩)
                  · exact .inr ⟨now_, taken.call?_eq_some.mpr ⟨own', found⟩, lost⟩
              · rintro ((before | ⟨rfl, rfl, now_⟩) | ⟨now_, found, lost⟩)
                · exact .inl before
                · exact .inr ⟨now_, taken.held, removed⟩
                · exact .inr ⟨now_, (taken.call?_eq_some.mp found).2, lost⟩
            · obtain ⟨other, there⟩ := taken.call?_eq_some.mp held
              rintro earlier since (before | ⟨same', -, -⟩)
              · exact apart id c there earlier since before
              · exact other same'
          · exact ih h own apart
        · exact ih h own apart

/-! ### The calls that were answered -/

/-- The answered calls that are remembered are the latest, each as far from the end of the list as
others have been claimed since. -/
def Remembered (answered : List (Nat × String)) (claimed : Nat → Call → Nat → Prop) : Prop :=
  ∀ later id method, answered.reverse[later]? = some (id, method) ↔
    later < greatestHistory ∧ ∃ call, claimed id call later ∧ call.method = method

namespace Remembered

variable {answered : List (Nat × String)} {claimed other : Nat → Call → Nat → Prop}

theorem nil : Remembered [] fun _ _ _ => False := by
  intro later id method
  simp

theorem congr (h : Remembered answered claimed)
    (same : ∀ id call later, other id call later ↔ claimed id call later) :
    Remembered answered other := by
  intro later id method
  simp only [h later id method, same]

theorem bounded (h : Remembered answered claimed) : answered.length ≤ greatestHistory := by
  refine Nat.le_of_not_lt fun ended => ?_
  have there : greatestHistory < answered.reverse.length := by
    rwa [List.length_reverse]
  have kept := (h greatestHistory _ _).mp (List.getElem?_eq_getElem there)
  exact absurd kept.1 (Nat.lt_irrefl _)

/-- What is found among the answered calls: those claimed before fewer than so many others. -/
theorem find? (h : Remembered answered claimed)
    (once : ∀ id call later call' later', claimed id call later → claimed id call' later' →
      call = call' ∧ later = later') {id : Nat} {call : Call} {later : Nat}
    (answer : claimed id call later) :
    CallTable.find? id answered = if later < greatestHistory then some call.method else none := by
  have own : ∀ method, (id, method) ∈ answered → later < greatestHistory ∧ method = call.method := by
    intro method held
    obtain ⟨k, there⟩ := List.mem_iff_getElem?.mp (List.mem_reverse.mpr held)
    obtain ⟨recent, call', answer', rfl⟩ := (h k id method).mp there
    obtain ⟨rfl, rfl⟩ := once id call later call' k answer answer'
    exact ⟨recent, rfl⟩
  cases found : CallTable.find? id answered with
  | some method =>
      obtain ⟨recent, rfl⟩ := own method (mem_of_find? found)
      rw [if_pos recent]
  | none =>
      rw [if_neg]
      intro recent
      have there := (h later id call.method).mpr ⟨recent, call, answer, rfl⟩
      have held := List.mem_reverse.mp (List.mem_of_getElem? there)
      exact find?_eq_none_iff.mp found (mem_keys held)

theorem find?_eq_none (h : Remembered answered claimed) {id : Nat}
    (never : ∀ call later, ¬ claimed id call later) : CallTable.find? id answered = none := by
  refine find?_eq_none_iff.mpr fun held => ?_
  obtain ⟨⟨key, method⟩, there, rfl⟩ := List.mem_map.mp held
  obtain ⟨k, there⟩ := List.mem_iff_getElem?.mp (List.mem_reverse.mpr there)
  obtain ⟨-, call, answer, -⟩ := (h k key method).mp there
  exact never call k answer

end Remembered

/-- The call answered last is put first, and at most so many of the others are kept. -/
theorem rememberAnswered_reverse {t : CallTable} (bounded : t.answered.length ≤ greatestHistory)
    (id : Nat) (method : String) : (t.rememberAnswered id method).answered.reverse =
      (id, method) :: t.answered.reverse.take (greatestHistory - 1) := by
  have kept : (if t.answered.length == greatestHistory then t.answered.drop 1 else t.answered) =
      t.answered.drop (t.answered.length - (greatestHistory - 1)) := by
    by_cases full : t.answered.length = greatestHistory
    · rw [if_pos (beq_iff_eq.mpr full), full]
      rfl
    · have room : t.answered.length - (greatestHistory - 1) = 0 := by omega
      rw [if_neg (by simpa using full), room, List.drop_zero]
  simp only [rememberAnswered, kept, List.reverse_append, List.reverse_singleton, List.take_reverse,
    List.singleton_append]

/-- A call that is claimed is remembered, and each that was has one more after it. -/
theorem Remembered.rememberAnswered {t : CallTable} {claimed other : Nat → Call → Nat → Prop}
    (h : Remembered t.answered claimed) {id : Nat} {call : Call}
    (last : ∀ id' call', other id' call' 0 ↔ id' = id ∧ call' = call)
    (earlier : ∀ id' call' later, other id' call' (later + 1) ↔ claimed id' call' later) :
    Remembered (t.rememberAnswered id call.method).answered other := by
  intro later id' method
  rw [rememberAnswered_reverse h.bounded]
  cases later with
  | zero =>
      rw [List.getElem?_cons_zero, Option.some.injEq, Prod.mk.injEq]
      simp only [last]
      constructor
      · rintro ⟨rfl, rfl⟩
        exact ⟨by decide, call, ⟨rfl, rfl⟩, rfl⟩
      · rintro ⟨-, call', ⟨rfl, rfl⟩, rfl⟩
        exact ⟨rfl, rfl⟩
  | succ later =>
      rw [List.getElem?_cons_succ, List.getElem?_take]
      simp only [earlier]
      split
      · rename_i recent
        rw [h later id' method]
        have room : later + 1 < greatestHistory := by omega
        have room' : later < greatestHistory := by omega
        simp only [room, room', true_and]
      · rename_i far
        have ended : ¬ later + 1 < greatestHistory := by omega
        simp only [ended, false_and, reduceCtorEq]

end ServerProbe.CallTable
