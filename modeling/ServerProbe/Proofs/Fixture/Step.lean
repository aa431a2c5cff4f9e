import ServerProbe.Fixture.Reader
import ServerProbe.Proofs.Rpc.Envelope
/-!
What a step that has been read holds: its documents are those of the members they are written under,
a null member being the same as none.
-/

namespace ServerProbe

open Json (Shaped find? keys)
open Rpc (Puts bind_eq_ok map_eq_ok)

/-! ### Fields of strict records -/

namespace RecordShape

variable {σ α : Type} {r : RecordShape} {put : σ → String → Json → Shaped σ} {s t : σ}
  {ms : List (String × Json)}

/-- A field that is read from the member of one key, and that no other member changes. -/
structure Feeds (put : σ → String → Json → Shaped σ) (key : String) (read : Json → Shaped (Option α))
    (field : σ → Option α) : Prop where
  own : ∀ s v t, put s key v = .ok t → read v = .ok (field t)
  others : ∀ s name v t, name ≠ key → put s name v = .ok t → field t = field s

/-- A strict record is left with members it knows. -/
theorem visitMembers_strict (strict : r.strict = true) {m : String × Json}
    (visited : r.visitMembers put s (m :: ms) = .ok t) :
    m.1 ∈ r.names ∧ ∃ mid, put s m.1 m.2 = .ok mid ∧ r.visitMembers put mid ms = .ok t := by
  obtain ⟨name, v⟩ := m
  rw [visitMembers] at visited
  split at visited
  · rename_i known
    split at visited
    · rename_i mid given
      exact ⟨List.contains_iff_mem.mp known, mid, given, visited⟩
    · cases visited
  · cases visited

theorem keys_known (strict : r.strict = true) (visited : r.visitMembers put s ms = .ok t) :
    keys ms ⊆ r.names := by
  induction ms generalizing s with
  | nil => exact List.nil_subset _
  | cons m ms ih =>
      obtain ⟨known, mid, -, rest⟩ := visitMembers_strict strict visited
      exact List.cons_subset.mpr ⟨known, ih rest⟩

theorem Feeds.visitMembers {key : String} {read : Json → Shaped (Option α)} {field : σ → Option α}
    (feeds : Feeds put key read field) (strict : r.strict = true) (distinct : (keys ms).Nodup)
    (visited : r.visitMembers put s ms = .ok t) : Puts read (field s) (find? key ms) (field t) := by
  induction ms generalizing s with
  | nil => exact congrArg field (Except.ok.inj visited).symm
  | cons m ms ih =>
      obtain ⟨name, v⟩ := m
      obtain ⟨once, rest⟩ := List.nodup_cons.mp distinct
      obtain ⟨-, mid, given, visited⟩ := visitMembers_strict strict visited
      have later := ih rest visited
      by_cases own : name = key
      · subst own
        rw [Json.find?_eq_none once] at later
        rw [Json.find?_cons_self]
        have kept : field t = field mid := later
        exact kept ▸ feeds.own s v mid given
      · rw [Json.find?_cons_of_ne own, ← feeds.others s name v mid own given]
        exact later

end RecordShape

namespace Fixture

/-- The document that is written under a key. Null is none. -/
def written? (key : String) (ms : List (String × Json)) : Option Json :=
  (find? key ms).filter fun v => !v.isNull

/-! ### Fields of a step -/

theorem mapError_eq_ok {ε ε' α : Type} {x : Except ε α} {f : ε → ε'} {a : α} :
    x.mapError f = .ok a ↔ x = .ok a := by
  cases x with
  | error fault => exact ⟨fun h => (by cases h), fun h => (by cases h)⟩
  | ok b => exact ⟨fun h => congrArg _ (Except.ok.inj h), fun h => congrArg _ (Except.ok.inj h)⟩

theorem toOption_ok (v : Json) : v.toOption .ok = .ok ((some v).filter fun v => !v.isNull) := by
  cases v <;> rfl

/-- The keys of the members that hold documents. -/
def documentKeys : List String := ["params", "result", "error"]

namespace StepFields

/-- The document that was read under a key. -/
def document? : String → StepFields → Option Json
  | "params", s => s.params
  | "result", s => s.result
  | "error", s => s.error
  | _, _ => .none

theorem feeds_document {key : String} (listed : key ∈ documentKeys) :
    RecordShape.Feeds put key (Json.toOption .ok) (document? key) := by
  simp only [documentKeys, List.mem_cons, List.not_mem_nil, or_false] at listed
  refine ⟨fun s v t given => ?_, fun s name v t other given => ?_⟩
  · obtain rfl | rfl | rfl := listed
    all_goals
      obtain ⟨found, read, rfl⟩ := map_eq_ok.mp given
      exact read
  · -- A member of another key leaves the field alone, whichever of the six it is.
    unfold put at given
    split at given
    all_goals
      obtain ⟨_, -, rfl⟩ := map_eq_ok.mp given
      obtain rfl | rfl | rfl := listed
    all_goals first | rfl | exact absurd rfl other

theorem document?_eq {r : RecordShape} (strict : r.strict = true) {ms : List (String × Json)}
    (distinct : (keys ms).Nodup) {s : StepFields} (visited : r.visitMembers put none ms = .ok s)
    {key : String} (listed : key ∈ documentKeys) : s.document? key = written? key ms := by
  have fed := (feeds_document listed).visitMembers strict distinct visited
  have empty : none.document? key = .none := by
    simp only [documentKeys, List.mem_cons, List.not_mem_nil, or_false] at listed
    obtain rfl | rfl | rfl := listed
    all_goals rfl
  rw [empty] at fed
  unfold written?
  cases found : find? key ms with
  | none =>
      rw [found] at fed
      exact fed
  | some v =>
      rw [found] at fed
      have read : v.toOption .ok = .ok (s.document? key) := fed
      rw [toOption_ok] at read
      exact (Except.ok.inj read).symm

/-- A step has the members of its kind only, and each document is that of its member. -/
theorem read_eq_ok {title key method : String} {others : List (String × Bool)}
    {ms : List (String × Json)} (distinct : (keys ms).Nodup) {s : StepFields}
    (read : StepFields.read title key others (.obj ms) = .ok (method, s)) :
    keys ms ⊆ key :: others.map Prod.fst ∧
      ∀ name ∈ documentKeys, s.document? name = written? name ms := by
  obtain ⟨fields, visited, rest⟩ := bind_eq_ok.mp read
  obtain ⟨_, -, same⟩ := bind_eq_ok.mp rest
  obtain ⟨-, rfl⟩ := Prod.mk.inj (Except.ok.inj same)
  have visited := mapError_eq_ok.mp visited
  exact ⟨RecordShape.keys_known rfl visited, fun name listed => document?_eq rfl distinct visited listed⟩

end StepFields

end Fixture

/-! ### Steps -/

/-- The document that a step holds under a key. -/
def FixtureStep.document? : String → FixtureStep → Option Json
  | "params", .request _ params _ _ => params
  | "params", .notify _ params => params
  | "params", .expectNotification _ params _ _ => params
  | "result", .request _ _ (.result expected) _ => some expected
  | "error", .request _ _ (.error expected) _ => some expected
  | _, _ => none

namespace Fixture

/-- A request says what it expects by its result or its error. -/
theorem expectation_eq_ok {s : StepFields} {expect : Expectation} (read : expectation s = .ok expect)
    (method : String) (timeout : Option Span) {name : String} (listed : name ∈ documentKeys) :
    (FixtureStep.request method s.params expect timeout).document? name = s.document? name := by
  simp only [documentKeys, List.mem_cons, List.not_mem_nil, or_false] at listed
  unfold expectation at read
  split at read
  · cases read
  all_goals
    rename_i result error
    obtain rfl := Except.ok.inj read
    obtain rfl | rfl | rfl := listed
    · rfl
    · exact result.symm
    · exact error.symm

theorem written?_of_unknown {known : List String} {ms : List (String × Json)} (sub : keys ms ⊆ known)
    {name : String} (unknown : name ∉ known) : written? name ms = none := by
  rw [written?, Json.find?_eq_none fun held => unknown (sub held)]
  rfl

/-- A step that knows neither a result nor an error has its params only. -/
theorem documents_of_params {step : FixtureStep} {ms : List (String × Json)} {known : List String}
    (sub : keys ms ⊆ known) (resultless : "result" ∉ known) (faultless : "error" ∉ known)
    (params : step.document? "params" = written? "params" ms)
    (others : step.document? "result" = none ∧ step.document? "error" = none) :
    ∀ name ∈ documentKeys, step.document? name = written? name ms := by
  refine List.forall_mem_cons.mpr ⟨params, List.forall_mem_cons.mpr ⟨?_, List.forall_mem_singleton.mpr ?_⟩⟩
  · exact others.1.trans (written?_of_unknown sub resultless).symm
  · exact others.2.trans (written?_of_unknown sub faultless).symm

/-- What has been read from an object is a request if a method was written under that key, and every
document of it is the one that was written. -/
theorem readStep_obj {ms : List (String × Json)} (distinct : (keys ms).Nodup) {step : FixtureStep}
    (read : readStep (.obj ms) = .ok step) :
    (∀ name ∈ documentKeys, step.document? name = written? name ms) ∧
      ((find? "request" ms).isSome → ∃ method params expect timeout,
        step = .request method params expect timeout) := by
  have params : "params" ∈ documentKeys := List.mem_cons_self
  unfold readStep at read
  dsimp only at read
  split at read
  · obtain ⟨⟨method, s⟩, fields, rest⟩ := bind_eq_ok.mp read
    obtain ⟨expect, expects, same⟩ := bind_eq_ok.mp rest
    obtain rfl := Except.ok.inj same
    obtain ⟨-, documents⟩ := StepFields.read_eq_ok distinct fields
    refine ⟨fun name listed => ?_, fun _ => ⟨_, _, _, _, rfl⟩⟩
    exact (expectation_eq_ok expects _ _ listed).trans (documents name listed)
  · rename_i other
    refine ⟨?_, fun asks => absurd asks other⟩
    split at read
    · obtain ⟨⟨method, s⟩, fields, same⟩ := bind_eq_ok.mp read
      obtain rfl := Except.ok.inj same
      obtain ⟨known, documents⟩ := StepFields.read_eq_ok distinct fields
      exact documents_of_params known (by decide) (by decide) (documents _ params) ⟨rfl, rfl⟩
    · split at read
      · obtain ⟨⟨method, s⟩, fields, same⟩ := bind_eq_ok.mp read
        obtain rfl := Except.ok.inj same
        obtain ⟨known, documents⟩ := StepFields.read_eq_ok distinct fields
        exact documents_of_params known (by decide) (by decide) (documents _ params) ⟨rfl, rfl⟩
      · cases read

end Fixture
end ServerProbe
