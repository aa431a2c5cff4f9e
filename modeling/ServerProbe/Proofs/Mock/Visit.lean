import ServerProbe.Check.Await
import ServerProbe.Proofs.Mock.Attendance
/-!
Routines that are run in one world after the other, and go on in each for as long as their questions can
be answered there. A wait for a notification ends in the first world in which what is wanted has been
recorded in its window, or in which its time is over.
-/

namespace ServerProbe

open Rpc (Notification)

/-- The result of a dialogue that is finished. -/
def Dialogue.result? {Q : Type} {A : Q → Type} {α : Type} : Dialogue Q A α → Option α
  | done a => some a
  | ask _ _ => none

/-! ### Records -/

namespace Record

variable {α : Type} {wanted : α → Bool} {r : Record α}

theorem foldl_add (more : List α) (r : Record α) : (more.foldl add r).items = r.items ++ more ∧
    (more.foldl add r).number = r.number + more.length := by
  induction more generalizing r with
  | nil => exact ⟨(List.append_nil _).symm, rfl⟩
  | cons item more ih =>
      obtain ⟨items, number⟩ := ih (r.add item)
      refine ⟨items.trans (List.append_assoc _ _ _), number.trans ?_⟩
      rw [List.length_cons, Nat.add_comm more.length 1, ← Nat.add_assoc]
      rfl

/-- A waiter that has scanned a record: it has found the first wanted item, or sleeps. -/
def scanned (wanted : α → Bool) (r : Record α) : Waiter α :=
  match r.items.find? wanted with
  | some item => .found item
  | none => .sleeping r.number

theorem scanned_found? (wanted : α → Bool) (r : Record α) :
    (scanned wanted r).found? = r.items.find? wanted := by
  unfold scanned
  split
  · rename_i here
    exact here.symm
  · rename_i none
    exact none.symm

theorem scanned_step (wanted : α → Bool) (r : Record α) :
    (scanned wanted r).step wanted r = scanned wanted r := by
  unfold scanned
  split
  · rfl
  · exact if_pos (beq_self_eq_true _)

theorem settle_noting (wanted : α → Bool) (r : Record α) :
    Waiter.noting.settle wanted r = scanned wanted r :=
  scanned_step wanted r

/-- A waiter that sleeps on a record in which it found nothing scans it again when it has grown. -/
theorem settle_sleeping (nothing : r.items.find? wanted = none) (more : List α) :
    (Waiter.sleeping r.number).settle wanted (more.foldl add r) = scanned wanted (more.foldl add r) := by
  obtain ⟨-, number⟩ := foldl_add more r
  cases more with
  | nil =>
      have sleeps : scanned wanted r = .sleeping r.number := by
        rw [scanned, nothing]
      rw [List.foldl_nil, ← sleeps, Waiter.settle, scanned_step, scanned_step, scanned_step]
  | cons item more =>
      have woken : ((item :: more).foldl add r).number ≠ r.number := by
        rw [number, List.length_cons]
        omega
      have wakes : (Waiter.sleeping r.number).step wanted ((item :: more).foldl add r) = .noting :=
        if_neg (mt eq_of_beq woken)
      rw [Waiter.settle, wakes]
      rfl

end Record

namespace Mock

variable {ρ α β : Type}

namespace World

/-! ### Worlds that follow one another -/

/-- A world that comes after another: routines are driven, what can happen happens, time goes on, and
everything but the notifications may change from elsewhere. -/
inductive Onward (w : World ρ) : World ρ → Prop
  | same : Onward w w
  | elsewhere {v v' : World ρ} (before : Onward w v) (notifications : v'.notifications = v.notifications)
      (now : v.now ≤ v'.now) : Onward w v'
  | driven {v : World ρ} {α : Type} (before : Onward w v) (r : Routine Handler α) : Onward w (v.drive r).1
  | happened {v : World ρ} (before : Onward w v) : Onward w v.event.2

/-- Notifications are only added to the record, and time does not go back. -/
structure Grown (w v : World ρ) : Prop where
  record : ∃ more : List Notification, v.notifications = more.foldl Record.add w.notifications
  now : w.now ≤ v.now

namespace Grown

variable {u v w : World ρ}

theorem refl (w : World ρ) : Grown w w := ⟨⟨[], rfl⟩, Nat.le_refl _⟩

theorem elsewhere (h : Grown u v) (notifications : w.notifications = v.notifications) (now : v.now ≤ w.now) :
    Grown u w := by
  obtain ⟨more, grown⟩ := h.record
  exact ⟨⟨more, notifications.trans grown⟩, Nat.le_trans h.now now⟩

theorem trans (first : Grown u v) (rest : Grown v w) : Grown u w := by
  obtain ⟨more, grown⟩ := first.record
  obtain ⟨further, later⟩ := rest.record
  refine ⟨⟨more ++ further, ?_⟩, Nat.le_trans first.now rest.now⟩
  rw [later, grown, List.foldl_append]

theorem take (w : World ρ) (o : Output Handler) : Grown w (w.take o) := by
  cases o with
  | broadcast n => exact ⟨⟨[n], rfl⟩, Nat.le_refl _⟩
  | _ => exact ⟨⟨[], rfl⟩, Nat.le_refl _⟩

theorem foldl_take (out : List (Output Handler)) (w : World ρ) : Grown w (out.foldl World.take w) := by
  induction out generalizing w with
  | nil => exact refl w
  | cons o out ih => exact (take w o).trans (ih _)

theorem turn (w : World ρ) (t : Turn Handler) : Grown w (w.turn t) := by
  have begun : Grown w { w with connection := t.1 } := (refl w).elsewhere rfl (Nat.le_refl _)
  have taken := begun.trans (foldl_take t.2 _)
  unfold World.turn
  dsimp only
  split
  · exact taken.elsewhere rfl (Nat.le_refl _)
  · exact taken

theorem input (w : World ρ) (i : Input Handler) : Grown w (w.input i) := turn w _

theorem answer (w : World ρ) (q : Question Handler) : Grown w (w.answer q).1 := by
  cases q with
  | command c =>
      simp only [World.answer]
      split
      · exact refl w
      · exact turn w _
  | writeFile path text =>
      simp only [World.answer]
      split <;> exact (refl w).elsewhere rfl (Nat.le_refl _)
  | makeDirectory path =>
      simp only [World.answer]
      split <;> exact (refl w).elsewhere rfl (Nat.le_refl _)
  | _ => exact refl w

theorem drive (r : Routine Handler α) (w : World ρ) : Grown w (w.drive r).1 := by
  induction r generalizing w with
  | done a => exact refl w
  | ask q next ih =>
      have asked := answer w q
      unfold World.drive
      split
      · rename_i w' a answered
        rw [answered] at asked
        exact asked.trans (ih a w')
      · rename_i w' answered
        rw [answered] at asked
        exact asked

/-- What is left to happen once everything has been read and the handler waits. -/
theorem rests (w : World ρ) :
    Grown w (if w.connection.calls.nextDeadline.1.any (· ≤ w.now) then (true, w.input .deadline)
      else if w.serverGone && !w.endSeen then
        (true, { w with endSeen := true }.input (.readEnded w.serverStatus))
      else (false, w)).2 := by
  split
  · exact input w _
  · split
    · have seen : Grown w { w with endSeen := true } := (refl w).elsewhere rfl (Nat.le_refl _)
      exact seen.trans (input _ _)
    · exact refl w

theorem event (w : World ρ) : Grown w w.event.2 := by
  unfold World.event
  split
  · exact refl w
  · split
    · exact (input w _).elsewhere rfl (Nat.le_refl _)
    · split
      · have read : Grown w { w with inbound := w.inbound.drop readSize } :=
          (refl w).elsewhere rfl (Nat.le_refl _)
        exact read.trans (input _ _)
      · split
        · rename_i w' how driven
          obtain ⟨r, -, same⟩ := Option.map_eq_some_iff.mp driven
          have driven := drive r w
          rw [same] at driven
          have dropped : Grown w { w' with front := none } := driven.elsewhere rfl (Nat.le_refl _)
          exact dropped.trans (input _ _)
        · refine Grown.trans ?_ (rests _)
          split
          · rename_i w' routine driven
            obtain ⟨r, -, same⟩ := Option.map_eq_some_iff.mp driven
            have driven := drive r w
            rw [same] at driven
            split
            · exact driven
            · exact driven.elsewhere rfl (Nat.le_refl _)
          · exact refl w

end Grown

theorem Onward.grown {w v : World ρ} (h : Onward w v) : Grown w v := by
  induction h with
  | same => exact .refl w
  | elsewhere before notifications now ih => exact ih.elsewhere notifications now
  | driven before r ih => exact ih.trans (.drive r _)
  | happened before ih => exact ih.trans (.event _)

/-! ### Routines in one world after the other -/

/-- What is left of a routine that is driven in some worlds, one after the other. -/
def visited (worlds : List (World ρ)) (r : Routine Handler α) : Routine Handler α :=
  worlds.foldl (fun r w => (w.drive r).2) r

theorem suspend_bind (w : World ρ) (q : Question Handler) (next : q.Answer → Routine Handler α)
    (f : α → β) : w.suspend ((Dialogue.ask q next).bind fun a => .done (f a)) =
      (w.suspend (.ask q next)).bind fun a => .done (f a) := by
  cases q <;> rfl

/-- What is done with the result of a routine makes no difference before. -/
theorem drive_bind (r : Routine Handler α) (f : α → β) (w : World ρ) :
    (w.drive (r.bind fun a => .done (f a))).2 = (w.drive r).2.bind fun a => .done (f a) := by
  induction r generalizing w with
  | done a => rfl
  | ask q next ih =>
      rw [Dialogue.bind]
      unfold drive
      split
      · rename_i w' a answered
        exact ih a w'
      · rename_i w' answered
        exact suspend_bind w' q next f

theorem visited_bind (r : Routine Handler α) (f : α → β) (worlds : List (World ρ)) :
    visited worlds (r.bind fun a => .done (f a)) = (visited worlds r).bind fun a => .done (f a) := by
  induction worlds generalizing r with
  | nil => rfl
  | cons w worlds ih =>
      change visited worlds (w.drive (r.bind fun a => .done (f a))).2 = _
      rw [drive_bind]
      exact ih _

theorem visited_done (a : α) (worlds : List (World ρ)) : visited worlds (.done a) = .done a := by
  induction worlds with
  | nil => rfl
  | cons w worlds ih => exact ih

theorem result?_bind (r : Routine Handler α) (f : α → β) (worlds : List (World ρ)) :
    (visited worlds (r.bind fun a => .done (f a))).result? = (visited worlds r).result?.map f := by
  rw [visited_bind]
  cases visited worlds r <;> rfl

end World

/-! ### Waiting for a notification -/

section Waiting

open World (Onward visited)

/-- The notifications that a wait may find in a world, if it began in another: those that have come
since, or all that have come. -/
def window (mode : ExpectMode) (start w : World ρ) : List Notification :=
  match mode with
  | .next => w.notifications.items.drop start.notifications.items.length
  | .eventually => w.notifications.items

/-- A wait that has found nothing in a world. -/
def standing (mode : ExpectMode) (start w : World ρ) (wanted : Notification → Bool) (deadline : Time) :
    Routine Handler (Option Notification) :=
  match mode with
  | .next =>
    Routine.question (.nextNotification start.notifications.items.length wanted deadline)
  | .eventually =>
    Routine.question (.recordedNotification (.sleeping w.notifications.number) wanted deadline)

/-- What a wait comes to in a world in which something may be found. -/
def sighting (mode : ExpectMode) (start v : World ρ) (wanted : Notification → Bool) (deadline : Time) :
    Option (Option Notification) :=
  v.foundBy deadline ((window mode start v).find? wanted)

variable {mode : ExpectMode} {start w v : World ρ} {wanted : Notification → Bool} {deadline : Time}

/-- A wait goes on only if there was nothing to be found. -/
theorem nothing_of_sighting (h : sighting mode start w wanted deadline = none) :
    (window mode start w).find? wanted = none ∧ w.now < deadline := by
  unfold sighting at h
  cases sought : (window mode start w).find? wanted with
  | some n =>
      rw [sought] at h
      cases h
  | none =>
      rw [sought] at h
      refine ⟨rfl, Nat.lt_of_not_le fun past => ?_⟩
      rw [World.foundBy, if_pos past] at h
      cases h

/-- A routine that comes to a result in a world or is left standing there. -/
def orStanding (mode : ExpectMode) (start w : World ρ) (wanted : Notification → Bool) (deadline : Time) :
    Option (Option Notification) → Routine Handler (Option Notification)
  | some a => .done a
  | none => standing mode start w wanted deadline

theorem drive_next : (v.drive (Routine.question
      (.nextNotification start.notifications.items.length wanted deadline))).2 =
    orStanding .next start v wanted deadline (sighting .next start v wanted deadline) := by
  rw [Routine.question, Dialogue.question, World.drive, World.answer]
  change _ = orStanding .next start v wanted deadline
    (v.foundBy deadline ((v.notifications.items.drop start.notifications.items.length).find? wanted))
  cases v.foundBy deadline ((v.notifications.items.drop start.notifications.items.length).find? wanted) <;>
    rfl

/-- A waiter that comes to scan the record finds something or sleeps. -/
theorem drive_recorded {waiter : Record.Waiter Notification}
    (scans : waiter.settle wanted v.notifications = Record.scanned wanted v.notifications) :
    (v.drive (Routine.question (.recordedNotification waiter wanted deadline))).2 =
      orStanding .eventually start v wanted deadline (sighting .eventually start v wanted deadline) := by
  rw [Routine.question, Dialogue.question, World.drive, World.answer, scans, Record.scanned_found?]
  cases seen : sighting .eventually start v wanted deadline with
  | some a =>
      change v.foundBy deadline (v.notifications.items.find? wanted) = some a at seen
      rw [seen]
      rfl
  | none =>
      obtain ⟨nothing, -⟩ := nothing_of_sighting seen
      change v.foundBy deadline (v.notifications.items.find? wanted) = none at seen
      change v.notifications.items.find? wanted = none at nothing
      rw [seen]
      change Routine.question (.recordedNotification (waiter.settle wanted v.notifications) wanted deadline)
        = Routine.question (.recordedNotification (.sleeping v.notifications.number) wanted deadline)
      rw [scans, Record.scanned, nothing]

theorem drive_standing (onward : Onward w v) (nothing : (window mode start w).find? wanted = none) :
    (v.drive (standing mode start w wanted deadline)).2 =
      orStanding mode start v wanted deadline (sighting mode start v wanted deadline) := by
  cases mode with
  | next => exact drive_next
  | eventually =>
      obtain ⟨more, grown⟩ := onward.grown.record
      refine drive_recorded ?_
      rw [grown]
      exact Record.settle_sleeping nothing more

theorem drive_notificationBy : (start.drive (Check.notificationBy deadline wanted mode)).2 =
    orStanding mode start start wanted deadline (sighting mode start start wanted deadline) := by
  cases mode with
  | next => exact drive_next
  | eventually => exact drive_recorded (Record.settle_noting _ _)

/-- From where nothing was found, a wait goes on until the first world in which there is something or in
which its time is over. -/
theorem visited_standing {worlds : List (World ρ)} (onward : (w :: worlds).IsChain Onward)
    (nothing : (window mode start w).find? wanted = none) :
    (visited worlds (standing mode start w wanted deadline)).result? =
      worlds.findSome? fun v => sighting mode start v wanted deadline := by
  induction worlds generalizing w with
  | nil => cases mode <;> rfl
  | cons v worlds ih =>
      obtain ⟨next, rest⟩ := List.isChain_cons_cons.mp onward
      change (visited worlds (v.drive _).2).result? = _
      rw [drive_standing next nothing, List.findSome?_cons]
      cases seen : sighting mode start v wanted deadline with
      | some a => exact congrArg Dialogue.result? (World.visited_done a worlds)
      | none =>
          obtain ⟨nothing, -⟩ := nothing_of_sighting seen
          exact ih rest nothing

theorem visited_notificationBy {worlds : List (World ρ)} (onward : (start :: worlds).IsChain Onward) :
    (visited (start :: worlds) (Check.notificationBy deadline wanted mode)).result? =
      (start :: worlds).findSome? fun v => sighting mode start v wanted deadline := by
  change (visited worlds (start.drive _).2).result? = _
  rw [drive_notificationBy, List.findSome?_cons]
  cases seen : sighting mode start start wanted deadline with
  | some a => exact congrArg Dialogue.result? (World.visited_done a worlds)
  | none =>
      obtain ⟨nothing, -⟩ := nothing_of_sighting seen
      exact visited_standing onward nothing

/-- There is a world in which something holds, and in all worlds before it a deadline was still to come. -/
def InTime (deadline : Time) (holds : World ρ → Prop) (worlds : List (World ρ)) : Prop :=
  ∃ before v after, worlds = before ++ v :: after ∧ (∀ u ∈ before, u.now < deadline) ∧ holds v

theorem not_inTime_nil {holds : World ρ → Prop} : ¬ InTime deadline holds [] := by
  rintro ⟨before, v, after, same, -⟩
  cases before <;> cases same

theorem inTime_cons {holds : World ρ → Prop} {worlds : List (World ρ)} :
    InTime deadline holds (w :: worlds) ↔
      holds w ∨ w.now < deadline ∧ InTime deadline holds worlds := by
  constructor
  · rintro ⟨_ | ⟨u, before⟩, v, after, same, early, here⟩
    · obtain ⟨rfl, -⟩ := List.cons.inj same
      exact .inl here
    · obtain ⟨rfl, rfl⟩ := List.cons.inj same
      obtain ⟨first, early⟩ := List.forall_mem_cons.mp early
      exact .inr ⟨first, before, v, after, rfl, early, here⟩
  · rintro (here | ⟨first, before, v, after, rfl, early, here⟩)
    · exact ⟨[], w, worlds, rfl, List.forall_mem_nil _, here⟩
    · exact ⟨w :: before, v, after, rfl, List.forall_mem_cons.mpr ⟨first, early⟩, here⟩

/-- A wait finds something just if there is in time something to be found. -/
theorem finds_iff (worlds : List (World ρ)) :
    (∃ n, (worlds.findSome? fun v => sighting mode start v wanted deadline) = some (some n)) ↔
      InTime deadline (fun v => ∃ n ∈ window mode start v, wanted n = true) worlds := by
  induction worlds with
  | nil =>
      refine ⟨fun found => ?_, fun found => absurd found not_inTime_nil⟩
      obtain ⟨n, found⟩ := found
      cases found
  | cons w worlds ih =>
      rw [inTime_cons, ← ih, List.findSome?_cons]
      cases sought : (window mode start w).find? wanted with
      | some n =>
          have seen : sighting mode start w wanted deadline = some (some n) := by
            rw [sighting, sought, World.foundBy]
          rw [seen]
          refine iff_of_true ⟨n, rfl⟩ (.inl ⟨n, ?_, ?_⟩)
          · exact List.mem_of_find?_eq_some sought
          · exact List.find?_some sought
      | none =>
          have unwanted : ¬ ∃ n ∈ window mode start w, wanted n = true := by
            rintro ⟨n, held, fits⟩
            exact List.find?_eq_none.mp sought n held fits
          rw [or_iff_right unwanted, sighting, sought, World.foundBy]
          by_cases past : deadline ≤ w.now
          · rw [if_pos past]
            refine iff_of_false (fun ⟨n, found⟩ => ?_) fun early => ?_
            · cases found
            · exact Nat.not_lt_of_le past early.1
          · rw [if_neg past, and_iff_right (Nat.lt_of_not_le past)]

/-- What a wait for a notification of a method comes to. -/
def heard (method : String) (timeout : Span) : Option Notification → Except CheckFailure Notification
  | some n => .ok n
  | none => .error (.notSeen ("`" ++ method ++ "` notification") timeout)

theorem visited_await (worlds : List (World ρ)) (method : String) (accepts : Notification → Bool)
    {timeout : Span} (short : Check.checkWait timeout = .ok ()) :
    (visited (start :: worlds) (Check.awaitNotification method accepts timeout mode)).result? =
      (visited (start :: worlds) (Check.notificationBy (start.now + timeout.nanos)
        (fun n => n.method == method && accepts n) mode)).result?.map (heard method timeout) := by
  rw [← World.result?_bind, Check.awaitNotification, short]
  have goes_on : (fun found : Option Notification => match found with
      | some n => (Dialogue.done (.ok n) : Routine Handler (Except CheckFailure Notification))
      | none => .done (.error (.notSeen ("`" ++ method ++ "` notification") timeout))) =
      fun found => .done (heard method timeout found) := by
    funext found
    cases found <;> rfl
  rw [← goes_on]
  rfl

/-- A wait for a notification comes to an end with one just if the wait is not too long and there is in
time one to be found. -/
theorem visited_awaitNotification {worlds : List (World ρ)} (onward : (start :: worlds).IsChain Onward)
    (method : String) (accepts : Notification → Bool) (timeout : Span) :
    (∃ n, (visited (start :: worlds) (Check.awaitNotification method accepts timeout mode)).result? =
        some (.ok n)) ↔
      timeout.nanos ≤ Check.greatestWait.nanos ∧
        InTime (start.now + timeout.nanos)
          (fun v => ∃ n ∈ window mode start v, (n.method == method && accepts n) = true)
          (start :: worlds) := by
  by_cases long : Check.greatestWait.nanos < timeout.nanos
  · refine iff_of_false (fun ⟨n, passed⟩ => ?_) fun short => Nat.not_le_of_lt long short.1
    rw [Check.awaitNotification, Check.checkWait, if_pos long] at passed
    change (visited (start :: worlds) (.done _)).result? = _ at passed
    rw [World.visited_done] at passed
    cases passed
  · rw [visited_await worlds method accepts (if_neg long), and_iff_right (Nat.le_of_not_lt long),
      ← finds_iff, ← visited_notificationBy onward]
    constructor
    · rintro ⟨n, passed⟩
      obtain ⟨found, here, verdict⟩ := Option.map_eq_some_iff.mp passed
      cases found with
      | some m => exact ⟨m, here⟩
      | none => cases verdict
    · rintro ⟨n, here⟩
      exact ⟨n, by rw [here]; rfl⟩

end Waiting
end Mock
end ServerProbe
