import Mathlib.Algebra.Order.BigOperators.Group.List
import Mathlib.Order.Nat
import ServerProbe.Server.Dial
/-!
How long connecting is tried. The waits add up, and as none of them is shorter than the first or the
greatest one, some wait would exceed the budget; that one is not begun. So trying ends, with an error
after that many waits and one attempt more, or with the first attempt that succeeds. The attempts are
all counted if there are fewer of them than 32 bits can count.
-/

namespace ServerProbe.Backoff

variable {ε α : Type} (b : Backoff)

/-- The wait after so many others: the first one doubled at each attempt, sixteen times at most, and never
more than the greatest. The attempts are counted in 32 bits. -/
def wait (n : Nat) : Span := ⟨min (b.first.nanos * 2 ^ min (n % 2 ^ 32) 16) b.greatest.nanos⟩

/-- The first `n` waits. -/
def waits (n : Nat) : List Span := (List.range n).map b.wait

/-- How long the first `n` waits are together. -/
def slept (n : Nat) : Span := (b.waits n).foldl Span.add .zero

theorem waits_succ (n : Nat) : b.waits (n + 1) = b.waits n ++ [b.wait n] := by
  rw [waits, List.range_succ, List.map_append]
  rfl

@[simp] theorem slept_zero : (b.slept 0).nanos = 0 := rfl

@[simp] theorem slept_succ (n : Nat) :
    (b.slept (n + 1)).nanos = (b.slept n).nanos + (b.wait n).nanos := by
  rw [slept, waits_succ, List.foldl_append]
  rfl

theorem delay_ofNat (n : Nat) : b.delay (UInt32.ofNat n).toNat = b.wait n := by
  rw [UInt32.toNat_ofNat']
  rfl

/-- No wait is shorter than the shorter one of the first and the greatest. -/
theorem wait_least (n : Nat) : min b.first.nanos b.greatest.nanos ≤ (b.wait n).nanos := by
  have doubled : b.first.nanos ≤ b.first.nanos * 2 ^ min (n % 2 ^ 32) 16 :=
    Nat.le_mul_of_pos_right _ (Nat.two_pow_pos _)
  exact min_le_min_right _ doubled

theorem slept_least (n : Nat) : n * min b.first.nanos b.greatest.nanos ≤ (b.slept n).nanos := by
  induction n with
  | zero => simp
  | succ n ih =>
      have last := b.wait_least n
      rw [slept_succ, Nat.succ_mul]
      omega

theorem slept_mono {m n : Nat} (before : m ≤ n) : (b.slept m).nanos ≤ (b.slept n).nanos := by
  induction n, before using Nat.le_induction with
  | base => exact Nat.le_refl _
  | succ n _ ih => exact Nat.le_trans ih (b.slept_succ n ▸ Nat.le_add_right _ _)

/-- The wait after so many others is the first that would exceed the budget. -/
structure LastWait (n : Nat) : Prop where
  within : (b.slept n).nanos ≤ b.budget.nanos
  exceeds : b.budget.nanos < (b.slept n).nanos + (b.wait n).nanos

theorem exists_lastWait (first : 0 < b.first.nanos) (greatest : 0 < b.greatest.nanos) :
    ∃ n, b.LastWait n := by
  have least : 0 < min b.first.nanos b.greatest.nanos := lt_min first greatest
  have ends : ∃ n, b.budget.nanos < (b.slept (n + 1)).nanos := by
    refine ⟨b.budget.nanos, Nat.lt_of_lt_of_le (Nat.lt_succ_self _) ?_⟩
    exact Nat.le_trans (Nat.le_mul_of_pos_right _ least) (b.slept_least _)
  obtain ⟨n, exceeds, before⟩ := Nat.findX ends
  refine ⟨n, ?_, b.slept_succ n ▸ exceeds⟩
  cases n with
  | zero => exact Nat.zero_le _
  | succ n => exact Nat.le_of_not_lt (before n (Nat.lt_succ_self n))

variable {b}

theorem LastWait.unique {m n : Nat} (one : b.LastWait m) (other : b.LastWait n) : m = n := by
  have never {m n : Nat} (one : b.LastWait m) (other : b.LastWait n) : ¬ m < n := fun before => by
    have later := b.slept_mono (Nat.succ_le_of_lt before)
    rw [Nat.succ_eq_add_one, slept_succ] at later
    exact Nat.not_lt_of_le (Nat.le_trans later other.within) one.exceeds
  exact Nat.le_antisymm (Nat.le_of_not_lt (never other one)) (Nat.le_of_not_lt (never one other))

/-! ### Trying -/

section Trying

variable {connect : Nat → Except ε α} {n slept : Nat} {e : ε} {stream : α}

theorem dialFrom_ok (here : connect n = .ok stream) :
    b.dialFrom connect n (.ofNat n) slept = some ⟨[], .ok stream⟩ := by
  rw [dialFrom, here]

theorem dialFrom_exceeding (here : connect n = .error e)
    (exceeds : b.budget.nanos < slept + (b.wait n).nanos) :
    b.dialFrom connect n (.ofNat n) slept = some ⟨[], .error (.ofNat (n + 1), e)⟩ := by
  rw [dialFrom, here, UInt32.ofNat_add]
  simp only [delay_ofNat]
  exact dif_pos exceeds

theorem dialFrom_waiting (here : connect n = .error e)
    (within : slept + (b.wait n).nanos ≤ b.budget.nanos) (waits : 0 < (b.wait n).nanos) :
    b.dialFrom connect n (.ofNat n) slept =
      (b.dialFrom connect (n + 1) (.ofNat (n + 1)) (slept + (b.wait n).nanos)).map fun d =>
        { d with waits := b.wait n :: d.waits } := by
  rw [dialFrom, here, UInt32.ofNat_add]
  simp only [delay_ofNat]
  exact (dif_neg (Nat.not_lt_of_le within)).trans (dif_pos waits)

/-- As long as the attempts fail and the waits between them fit, trying goes on with the next
attempt, all waits so far having been made. -/
theorem dial_onwards (positive : ∀ n, 0 < (b.wait n).nanos) {n : Nat}
    (fails : ∀ i < n, ∃ e, connect i = .error e) (within : (b.slept n).nanos ≤ b.budget.nanos) :
    b.dial connect = (b.dialFrom connect n (.ofNat n) (b.slept n).nanos).map fun d =>
      { d with waits := b.waits n ++ d.waits } := by
  induction n with
  | zero => exact (Option.map_id' (x := b.dialFrom connect 0 0 0)).symm
  | succ n ih =>
      have shorter := Nat.le_trans (b.slept_mono (Nat.le_succ n)) within
      obtain ⟨e, here⟩ := fails n (Nat.lt_succ_self n)
      rw [ih (fun i before => fails i (Nat.lt_succ_of_lt before)) shorter,
        dialFrom_waiting here (b.slept_succ n ▸ within) (positive n), Option.map_map, b.slept_succ,
        waits_succ]
      simp only [Function.comp_def, List.append_assoc, List.singleton_append]

theorem wait_pos (first : 0 < b.first.nanos) (greatest : 0 < b.greatest.nanos) (n : Nat) :
    0 < (b.wait n).nanos := Nat.lt_of_lt_of_le (lt_min first greatest) (b.wait_least n)

theorem LastWait.failing {k : Nat} (last : b.LastWait k) (positive : ∀ n, 0 < (b.wait n).nanos)
    {fault : Nat → ε} (fails : ∀ i ≤ k, connect i = .error (fault i)) :
    b.dial connect = some ⟨b.waits k, .error (.ofNat (k + 1), fault k)⟩ := by
  have before (i : Nat) (earlier : i < k) : ∃ e, connect i = .error e := ⟨_, fails i earlier.le⟩
  rw [dial_onwards positive before last.within,
    dialFrom_exceeding (fails k (Nat.le_refl k)) last.exceeds, Option.map_some, List.append_nil]

theorem LastWait.reaching {k j : Nat} (last : b.LastWait k) (positive : ∀ n, 0 < (b.wait n).nanos)
    (notLater : j ≤ k) (fails : ∀ i < j, ∃ e, connect i = .error e) (here : connect j = .ok stream) :
    b.dial connect = some ⟨b.waits j, .ok stream⟩ := by
  rw [dial_onwards positive fails (Nat.le_trans (b.slept_mono notLater) last.within),
    dialFrom_ok here, Option.map_some, List.append_nil]

end Trying

/-- What trying comes to when `k` waits fit the budget and one more would not. -/
structure GivesUpAfter (b : Backoff) (k : Nat) : Prop where
  within : (b.slept k).nanos ≤ b.budget.nanos
  exceeds : b.budget.nanos < (b.slept k).nanos + (b.wait k).nanos
  failing {ε α : Type} {connect : Nat → Except ε α} {fault : Nat → ε} :
    (∀ i ≤ k, connect i = .error (fault i)) →
      b.dial connect = some ⟨b.waits k, .error (.ofNat (k + 1), fault k)⟩
  reaching {ε α : Type} {connect : Nat → Except ε α} {j : Nat} {stream : α} :
    j ≤ k → (∀ i < j, ∃ e, connect i = .error e) → connect j = .ok stream →
      b.dial connect = some ⟨b.waits j, .ok stream⟩
  told (files : FileTree) (path : String) :
    b.dialSocket files path =
      some (.processSpawn (Endpoint.unix path).render
        ("connect failed after " ++ toString (UInt32.ofNat (k + 1)) ++ " attempts: " ++
          (ServerProbe.dialSocket files path).message), b.slept k)
  /-- As long as the attempts can be counted, the waits double up to the greatest one and every attempt
  is counted. -/
  counted : k + 1 < 2 ^ 32 → (UInt32.ofNat (k + 1)).toNat = k + 1 ∧
    ∀ i ≤ k, b.wait i = ⟨min (b.first.nanos * 2 ^ min i 16) b.greatest.nanos⟩
  /-- They can be, unless the budget holds the shortest wait too many times. -/
  few : k * min b.first.nanos b.greatest.nanos ≤ b.budget.nanos

/-- Trying always ends. As many waits are made as fit the budget, and there is one attempt more than
waits. It ends sooner with the first attempt that succeeds, having made the waits before that. -/
theorem dial_within_budget (b : Backoff) (first : 0 < b.first.nanos) (greatest : 0 < b.greatest.nanos) :
    ∃ k, b.GivesUpAfter k := by
  have positive := wait_pos first greatest
  obtain ⟨k, last⟩ := b.exists_lastWait first greatest
  refine ⟨k, last.within, last.exceeds, last.failing positive, last.reaching positive, ?told, ?counted,
    Nat.le_trans (b.slept_least k) last.within⟩
  case told =>
    intro files path
    rw [Backoff.dialSocket, last.failing positive fun i _ => rfl]
    rfl
  case counted =>
    intro few
    refine ⟨UInt32.toNat_ofNat_of_lt' few, fun i before => ?_⟩
    rw [wait, Nat.mod_eq_of_lt (Nat.lt_of_le_of_lt before (Nat.lt_of_succ_lt few))]

/-- With the waits that are usual, twelve fit into the ten seconds. -/
theorem dial_within_budget_standard :
    0 < standard.first.nanos ∧ 0 < standard.greatest.nanos ∧ standard.GivesUpAfter 12 := by
  obtain ⟨k, ends⟩ := dial_within_budget standard (by decide) (by decide)
  have twelve : standard.LastWait 12 := ⟨by decide +kernel, by decide +kernel⟩
  exact ⟨by decide, by decide, twelve.unique ⟨ends.within, ends.exceeds⟩ ▸ ends⟩

/-! ### More attempts than can be counted -/

/-- Waits of a millisecond each, and a budget of some fifty days. -/
def patient : Backoff := ⟨.ofMillis 1, .ofMillis 1, .ofMillis (2 ^ 32 - 1)⟩

theorem patient_wait (n : Nat) : patient.wait n = .ofMillis 1 := by
  have doubled : 1000000 ≤ 1000000 * 2 ^ min (n % 2 ^ 32) 16 :=
    Nat.le_mul_of_pos_right _ (Nat.two_pow_pos _)
  exact congrArg Span.mk (Nat.min_eq_right doubled)

theorem patient_slept (n : Nat) : (patient.slept n).nanos = n * 1000000 := by
  induction n with
  | zero => rfl
  | succ n ih => rw [slept_succ, ih, patient_wait, Nat.succ_mul]; rfl

/-- After as many waits as that, no attempt at all is reported. -/
theorem attempts_uncounted : 0 < patient.first.nanos ∧ 0 < patient.greatest.nanos ∧
    ∃ waits, waits.length + 1 = 2 ^ 32 ∧
      patient.dial (fun _ => (.error () : Except Unit Empty)) = some ⟨waits, .error (0, ())⟩ := by
  have last : patient.LastWait (2 ^ 32 - 1) := by
    refine ⟨?_, ?_⟩
    · rw [patient_slept]
      exact Nat.le_refl _
    · rw [patient_slept, patient_wait]
      exact Nat.lt_succ_of_lt (Nat.lt_add_of_pos_right (by decide))
  refine ⟨by decide, by decide, patient.waits (2 ^ 32 - 1), ?_, ?_⟩
  · simp [waits]
  · exact last.failing (wait_pos (by decide) (by decide)) fun _ _ => rfl

end ServerProbe.Backoff
