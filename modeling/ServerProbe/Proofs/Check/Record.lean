import Mathlib.Data.List.Induction
import Mathlib.Logic.Function.Basic
import ServerProbe.Check.Record
/-!
A record, the one party that fills it and any number of parties that wait on it, each of which goes one
step when it has its turn. Items of several kinds may be in the record; a waiter does not want those of
other kinds. However the turns come, a waiter sleeps only while all that has been counted since it noted
the number, and all before, is of no use to it.
-/

namespace ServerProbe.Record

/-! ### Parties -/

/-- A record and the parties around it. The filler is midway when it has appended an item and not
raised the number. -/
structure Scene (ι α : Type) where
  coming : List α
  record : Record α
  midway : Bool
  waiters : ι → Waiter α

/-- The party that goes its next step. -/
inductive Turn (ι : Type) where
  | filler
  | waiter (i : ι)

namespace Scene

variable {ι α : Type}

def opening (coming : List α) : Scene ι α := ⟨coming, .empty, false, fun _ => .noting⟩

/-- One step of the party that fills the record. -/
def fill (s : Scene ι α) : Scene ι α :=
  if s.midway then { s with record := s.record.raise, midway := false }
  else
    match s.coming with
    | [] => s
    | item :: coming => { s with coming, record := s.record.append item, midway := true }

theorem fill_waiters (s : Scene ι α) : s.fill.waiters = s.waiters := by
  unfold fill
  split
  · rfl
  · split <;> rfl

variable [DecidableEq ι] (wanted : ι → α → Bool)

def wait (s : Scene ι α) (i : ι) : Scene ι α :=
  { s with waiters := Function.update s.waiters i ((s.waiters i).step (wanted i) s.record) }

theorem wait_self (s : Scene ι α) (i : ι) :
    (s.wait wanted i).waiters i = (s.waiters i).step (wanted i) s.record :=
  Function.update_self _ _ _

theorem wait_other (s : Scene ι α) {i j : ι} (other : j ≠ i) :
    (s.wait wanted i).waiters j = s.waiters j :=
  Function.update_of_ne other _ _

def step (s : Scene ι α) : Turn ι → Scene ι α
  | .filler => s.fill
  | .waiter i => s.wait wanted i

def run (turns : List (Turn ι)) (s : Scene ι α) : Scene ι α := turns.foldl (step wanted) s

theorem run_snoc (turns : List (Turn ι)) (turn : Turn ι) (s : Scene ι α) :
    run wanted (turns ++ [turn]) s = (run wanted turns s).step wanted turn := by
  rw [run, List.foldl_append]
  rfl

end Scene

/-! ### What a waiter knows -/

variable {α : Type}

/-- What holds of a record for a waiter at some point: none of the items that had been counted when it
noted the number is wanted by one that sleeps, and what has been found is the first wanted item. -/
def Waiter.Knows (wanted : α → Bool) (r : Record α) : Waiter α → Prop
  | .noting => True
  | .scanning noted => noted ≤ r.items.length
  | .sleeping noted => noted ≤ r.items.length ∧ (r.items.take noted).find? wanted = none
  | .found item => r.items.find? wanted = some item

theorem Waiter.Knows.append {wanted : α → Bool} {r : Record α} {w : Waiter α} (knows : w.Knows wanted r)
    (item : α) : w.Knows wanted (r.append item) := by
  have longer : r.items.length ≤ (r.append item).items.length := by
    rw [Record.append, List.length_append]
    exact Nat.le_add_right _ _
  cases w with
  | noting => trivial
  | scanning noted => exact Nat.le_trans knows longer
  | sleeping noted =>
      obtain ⟨counted, none⟩ := knows
      refine ⟨Nat.le_trans counted longer, ?_⟩
      rwa [Record.append, List.take_append_of_le_length counted]
  | found first =>
      change r.items.find? wanted = some first at knows
      change (r.items ++ [item]).find? wanted = some first
      rw [List.find?_append, knows, Option.some_or]

theorem Waiter.Knows.step {wanted : α → Bool} {r : Record α} {w : Waiter α} (knows : w.Knows wanted r)
    (counted : r.number ≤ r.items.length) : (w.step wanted r).Knows wanted r := by
  cases w with
  | noting => exact counted
  | scanning noted =>
      rw [Waiter.step]
      split
      · rename_i item here
        exact here
      · rename_i none
        refine ⟨knows, List.find?_eq_none.mpr fun item held => ?_⟩
        exact List.find?_eq_none.mp none item (List.mem_of_mem_take held)
  | sleeping noted =>
      rw [Waiter.step]
      split
      · exact knows
      · trivial
  | found item => exact knows

theorem Waiter.step_unfound {wanted : α → Bool} {r : Record α} (nothing : r.items.find? wanted = none)
    {w : Waiter α} (unfound : w.found? = none) : (w.step wanted r).found? = none := by
  cases w with
  | noting => rfl
  | scanning noted =>
      rw [Waiter.step, nothing]
      rfl
  | sleeping noted =>
      rw [Waiter.step]
      split <;> rfl
  | found item => exact unfound

namespace Scene

variable {ι : Type} {wanted : ι → α → Bool}

/-- The number counts the items, but for the one that is being added. -/
structure Sound (wanted : ι → α → Bool) (s : Scene ι α) : Prop where
  counted : s.record.items.length = s.record.number + if s.midway then 1 else 0
  knows : ∀ i, (s.waiters i).Knows (wanted i) s.record

theorem opening_sound (coming : List α) : (opening coming : Scene ι α).Sound wanted :=
  ⟨rfl, fun _ => trivial⟩

theorem Sound.number_le {s : Scene ι α} (sound : s.Sound wanted) :
    s.record.number ≤ s.record.items.length := by
  rw [sound.counted]
  exact Nat.le_add_right _ _

theorem Sound.all_counted {s : Scene ι α} (sound : s.Sound wanted) (between : s.midway = false) :
    s.record.items.length = s.record.number := by
  have counted := sound.counted
  rwa [between] at counted

theorem Sound.fill {s : Scene ι α} (sound : s.Sound wanted) : s.fill.Sound wanted := by
  have counted := sound.counted
  unfold Scene.fill
  split
  · rename_i midway
    rw [if_pos midway] at counted
    exact ⟨counted, sound.knows⟩
  · rename_i between
    rw [if_neg between] at counted
    split
    · exact sound
    · rename_i item coming next
      refine ⟨?_, fun i => (sound.knows i).append item⟩
      simp only [Record.append, List.length_append, List.length_singleton, if_true]
      omega

/-- A waiter that sleeps on the present number, while no item is half added, wants no item. -/
theorem Sound.sleeps {s : Scene ι α} (sound : s.Sound wanted) {i : ι}
    (sleeps : s.waiters i = .sleeping s.record.number) (between : s.midway = false) :
    ∀ item ∈ s.record.items, wanted i item = false := by
  have knows := sound.knows i
  rw [sleeps] at knows
  obtain ⟨-, none⟩ := knows
  rw [← sound.all_counted between, List.take_length] at none
  intro item held
  exact Bool.eq_false_iff.mpr (List.find?_eq_none.mp none item held)

variable [DecidableEq ι]

theorem Sound.wait {s : Scene ι α} (sound : s.Sound wanted) (i : ι) : (s.wait wanted i).Sound wanted := by
  refine ⟨sound.counted, fun j => ?_⟩
  by_cases same : j = i
  · rw [same, wait_self]
    exact (sound.knows i).step sound.number_le
  · rw [wait_other wanted s same]
    exact sound.knows j

theorem Sound.step {s : Scene ι α} (sound : s.Sound wanted) (turn : Turn ι) :
    (s.step wanted turn).Sound wanted := by
  cases turn with
  | filler => exact sound.fill
  | waiter i => exact sound.wait i

theorem run_sound (turns : List (Turn ι)) (coming : List α) :
    (run wanted turns (opening coming)).Sound wanted := by
  induction turns using List.reverseRecOn with
  | nil => exact opening_sound coming
  | append_singleton turns turn ih =>
      rw [run_snoc]
      exact ih.step turn

/-! ### Runs -/

/-- The only step on which a waiter finds something is its scan. -/
theorem found_by_step {s : Scene ι α} {turn : Turn ι} {i : ι} {item : α}
    (found : (s.step wanted turn).waiters i = .found item) :
    s.waiters i = .found item ∨ turn = .waiter i ∧ ∃ noted, s.waiters i = .scanning noted ∧
      s.record.items.find? (wanted i) = some item := by
  cases turn with
  | filler =>
      left
      rwa [← fill_waiters s]
  | waiter j =>
      by_cases same : i = j
      · subst same
        change (s.wait wanted i).waiters i = .found item at found
        rw [wait_self] at found
        cases state : s.waiters i with
        | noting =>
            rw [state] at found
            cases found
        | scanning noted =>
            rw [state, Waiter.step] at found
            split at found
            · rename_i first here
              cases found
              exact .inr ⟨rfl, noted, rfl, here⟩
            · cases found
        | sleeping noted =>
            rw [state, Waiter.step] at found
            split at found <;> cases found
        | found first =>
            rw [state] at found
            exact .inl found
      · left
        rwa [← wait_other wanted s same]

/-- What a waiter has found it found in one scan of its own. -/
theorem found_in_scan {turns : List (Turn ι)} {coming : List α} {i : ι} {item : α}
    (found : (run wanted turns (opening coming)).waiters i = .found item) :
    ∃ before after noted, turns = before ++ .waiter i :: after ∧
      (run wanted before (opening coming)).waiters i = .scanning noted ∧
      (run wanted before (opening coming)).record.items.find? (wanted i) = some item := by
  induction turns using List.reverseRecOn with
  | nil => cases found
  | append_singleton turns turn ih =>
      rw [run_snoc] at found
      rcases found_by_step found with earlier | ⟨rfl, noted, scans, first⟩
      · obtain ⟨before, after, noted, rfl, scans, first⟩ := ih earlier
        exact ⟨before, after ++ [turn], noted, List.append_assoc _ _ _, scans, first⟩
      · exact ⟨turns, [], noted, rfl, scans, first⟩

/-- However the parties go, no waiter sleeps on the present number while it wants an item of the record
and none is half added, and what a waiter has found is the first item that it wanted when it scanned the
record. -/
theorem no_wake_lost (wanted : ι → α → Bool) (coming : List α) (turns : List (Turn ι)) (i : ι) :
    ((run wanted turns (opening coming)).waiters i =
          .sleeping (run wanted turns (opening coming)).record.number →
        (run wanted turns (opening coming)).midway = false →
        ∀ item ∈ (run wanted turns (opening coming)).record.items, wanted i item = false) ∧
      (∀ item, (run wanted turns (opening coming)).waiters i = .found item →
        ∃ before after noted, turns = before ++ .waiter i :: after ∧
          (run wanted before (opening coming)).waiters i = .scanning noted ∧
          (run wanted before (opening coming)).record.items.find? (wanted i) = some item) :=
  ⟨(run_sound turns coming).sleeps, fun _ => found_in_scan⟩

/-- Two waiters and one item, which is scanned by both before it is counted. -/
def twoWaiters : List (Turn Bool) :=
  [.waiter true, .filler, .waiter true, .waiter false, .waiter false, .filler, .waiter false,
    .waiter false, .waiter false]

/-- One of the waiters finds the item. The other, which wants another item, is woken in vain. -/
theorem no_wake_lost_two_waiters :
    ∃ s : Scene Bool Nat, s = run (fun i n => n == cond i 5 7) twoWaiters (opening [5]) ∧
      s.waiters true = .found 5 ∧ s.waiters false = .sleeping s.record.number ∧
      (∀ item ∈ s.record.items, (item == 7) = false) ∧
      ∃ before, (run (fun i n => n == cond i 5 7) before (opening [5])).record.items.find? (· == 5) =
        some 5 := by
  have calm := (no_wake_lost (fun i n => n == cond i 5 7) [5] twoWaiters false).1 rfl rfl
  obtain ⟨before, -, -, -, -, first⟩ :=
    (no_wake_lost (fun i n => n == cond i 5 7) [5] twoWaiters true).2 5 rfl
  exact ⟨_, rfl, rfl, rfl, calm, before, first⟩

/-! ### A waiter on its own -/

/-- A waiter that goes on alone, while no item is half added, finds what there is for it. -/
theorem settle_finds (turns : List (Turn ι)) (coming : List α) (i : ι)
    (between : (run wanted turns (opening coming)).midway = false) :
    (((run wanted turns (opening coming)).waiters i).settle (wanted i)
        (run wanted turns (opening coming)).record).found? =
      (run wanted turns (opening coming)).record.items.find? (wanted i) := by
  have sound : Sound wanted _ := run_sound turns coming
  generalize run wanted turns (opening coming) = s at between sound ⊢
  have knows := sound.knows i
  cases first : s.record.items.find? (wanted i) with
  | none =>
      have unfound : (s.waiters i).found? = none := by
        cases state : s.waiters i with
        | found item =>
            rw [state] at knows
            cases first.symm.trans knows
        | _ => rfl
      exact Waiter.step_unfound first (Waiter.step_unfound first (Waiter.step_unfound first unfound))
  | some item =>
      have scans : ∀ noted, (Waiter.scanning noted).step (wanted i) s.record = .found item := by
        intro noted
        rw [Waiter.step, first]
      cases state : s.waiters i with
      | noting =>
          rw [Waiter.settle, Waiter.step, scans]
          rfl
      | scanning noted =>
          rw [Waiter.settle, scans]
          rfl
      | found held =>
          rw [state] at knows
          exact knows.symm.trans first
      | sleeping noted =>
          have woken : (s.record.number == noted) = false := by
            refine beq_false_of_ne fun same => ?_
            rw [← same] at state
            have unwanted := sound.sleeps state between item (List.mem_of_find?_eq_some first)
            rw [List.find?_some first] at unwanted
            cases unwanted
          rw [Waiter.settle, show (Waiter.sleeping noted).step (wanted i) s.record = .noting by
            rw [Waiter.step, woken]; rfl, Waiter.step, scans]
          rfl

end Scene
end ServerProbe.Record
