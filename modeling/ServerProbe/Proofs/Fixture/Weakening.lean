import ServerProbe.Proofs.Fixture.Verdict
import ServerProbe.Proofs.Json.Order
/-!
Fixtures that ask for less. An expectation may be replaced by one that it contains, and whatever passes
before passes then, because containment orders documents.
-/

namespace ServerProbe

open Rpc (Notification)

/-- The second expectation asks for no more than the first. -/
inductive Expectation.Eased : Expectation → Expectation → Prop
  | same {e : Expectation} : Eased e e
  | unchecked {expected : Json} : Eased (.result expected) .success
  | result {expected less : Json} (contained : expected.contains less = true) :
      Eased (.result expected) (.result less)
  | error {expected less : Json} (contained : expected.contains less = true) :
      Eased (.error expected) (.error less)

/-- The second step is the same as the first, but expects no more. -/
inductive FixtureStep.Eased : FixtureStep → FixtureStep → Prop
  | request {method : String} {params : Option Json} {timeout : Option Span} {expect expect' : Expectation}
      (eased : expect.Eased expect') :
      Eased (.request method params expect timeout) (.request method params expect' timeout)
  | notify {method : String} {params : Option Json} :
      Eased (.notify method params) (.notify method params)
  | expectNotification {method : String} {mode : ExpectMode} {timeout : Option Span}
      {params params' : Option Json}
      (contained : (params.getD (.obj [])).contains (params'.getD (.obj [])) = true) :
      Eased (.expectNotification method params mode timeout)
        (.expectNotification method params' mode timeout)

namespace Fixture

open Mock (World window InTime)
open Mock.World (Onward visited)

variable {ρ : Type}

theorem checkAnswer_eased {answer : Answered} {expect expect' : Expectation} (eased : expect.Eased expect')
    (passed : checkAnswer answer expect = .ok ()) : checkAnswer answer expect' = .ok () := by
  cases eased with
  | same => exact passed
  | unchecked =>
      obtain ⟨result, same, -⟩ := checkAnswer_result.mp passed
      exact checkAnswer_success.mpr ⟨result, same⟩
  | result contained =>
      obtain ⟨result, same, held⟩ := checkAnswer_result.mp passed
      exact checkAnswer_result.mpr ⟨result, same, Json.contains_trans held contained⟩
  | error contained =>
      cases answer with
      | ok result => cases passed
      | error failure =>
          cases failure with
          | refused e =>
              exact requireContained_ok.mpr (Json.contains_trans (requireContained_ok.mp passed) contained)
          | _ => cases passed

theorem hasParams_eased {expected less : Json} (contained : expected.contains less = true)
    {n : Notification} (fits : Check.hasParams expected n = true) : Check.hasParams less n = true :=
  Json.contains_trans fits contained

/-- Whether a step that is run in some worlds, one after the other, passes. -/
def Passes (worlds : List (World ρ)) (wait : Span) (step : FixtureStep) : Prop :=
  (visited worlds (runStep wait step)).result?.map outcomeOf = some .passed

theorem passes_request {worlds : List (World ρ)} {wait : Span} {method : String} {params : Option Json}
    {expect : Expectation} {timeout : Option Span} :
    Passes worlds wait (.request method params expect timeout) ↔
      ∃ answer, (visited worlds (Client.request method params timeout)).result? = some answer ∧
        checkAnswer answer expect = .ok () := by
  rw [Passes, visited_request, Option.map_map, Option.map_eq_some_iff]
  exact exists_congr fun answer => and_congr_right fun _ => outcomeOf_passed

theorem passes_expectNotification {start : World ρ} {worlds : List (World ρ)}
    (onward : (start :: worlds).IsChain Onward) {wait : Span} {method : String} {params : Option Json}
    {mode : ExpectMode} {timeout : Option Span} :
    Passes (start :: worlds) wait (.expectNotification method params mode timeout) ↔
      (timeout.getD wait).nanos ≤ Check.greatestWait.nanos ∧
        InTime (start.now + (timeout.getD wait).nanos)
          (fun v => ∃ n ∈ window mode start v,
            (n.method == method && Check.hasParams (params.getD (.obj [])) n) = true)
          (start :: worlds) := by
  rw [Passes, visited_expectNotification, passed_of_found, Mock.visited_awaitNotification onward]

/-- A step that passes, passes also if it expects less. -/
theorem passes_eased {start : World ρ} {worlds : List (World ρ)} (onward : (start :: worlds).IsChain Onward)
    {wait : Span} {step eased : FixtureStep} (h : step.Eased eased)
    (passes : Passes (start :: worlds) wait step) : Passes (start :: worlds) wait eased := by
  cases h with
  | request eased =>
      obtain ⟨answer, answered, passed⟩ := passes_request.mp passes
      exact passes_request.mpr ⟨answer, answered, checkAnswer_eased eased passed⟩
  | notify => exact passes
  | expectNotification contained =>
      obtain ⟨short, before, v, after, same, early, n, held, fits⟩ :=
        (passes_expectNotification onward).mp passes
      obtain ⟨named, fits⟩ := Bool.and_eq_true_iff.mp fits
      refine (passes_expectNotification onward).mpr ⟨short, before, v, after, same, early, n, held, ?_⟩
      exact Bool.and_eq_true_iff.mpr ⟨named, hasParams_eased contained fits⟩

/-- Containment is a partial order of documents, up to the equality of numbers. So an expectation can be
weakened and all that passed still passes. -/
theorem containment_orders (ρ : Type) :
    (∀ v : Json, v.Proper → v.contains v = true) ∧
    (∀ a b c : Json, a.contains b = true → b.contains c = true → a.contains c = true) ∧
    (∀ a b : Json, a.Proper → b.Proper →
      (a.contains b = true ∧ b.contains a = true ↔ (a == b) = true)) ∧
    (∀ (start : World ρ) (worlds : List (World ρ)), (start :: worlds).IsChain Onward →
      ∀ (wait : Span) (step eased : FixtureStep), step.Eased eased →
        Passes (start :: worlds) wait step → Passes (start :: worlds) wait eased) := by
  refine ⟨fun v proper => ?_, fun a b c => Json.contains_trans, fun a b first second => ?_,
    fun start worlds onward wait step eased => passes_eased onward⟩
  · exact Json.contains_iff_contained.mpr (.refl proper)
  · rw [Json.contains_iff_contained, Json.contains_iff_contained, and_comm]
    exact Json.contained_both first second

/-- An item between two others, of which a fixture may expect less and less. -/
def listed (others : List Json) (item : List (String × Json)) : Json :=
  .obj [("items", .arr (others ++ [.obj item, .int 3]))]

theorem listed_proper {item : List (String × Json)} (increasing : Json.Increasing item)
    (each : ∀ m ∈ item, m.2.Proper) : (listed [.int 1] item).Proper := by
  refine .obj (List.pairwise_singleton _ _) (List.forall_mem_singleton.mpr (.arr ?_))
  exact List.forall_mem_cons.mpr ⟨.num _, List.forall_mem_cons.mpr
    ⟨.obj increasing each, List.forall_mem_singleton.mpr (.num _)⟩⟩

def whole : Json := listed [.int 1] [("a", .null), ("b", .num (.double (.zero false)))]

/-- The same document with the other zero. -/
def negated : Json := listed [.int 1] [("a", .null), ("b", .num (.double (.zero true)))]

def part : Json := listed [] [("b", .num (.double (.zero true)))]

def least : Json := listed [] []

theorem zeros_proper (zero : Binary64) :
    (listed [.int 1] [("a", .null), ("b", .num (.double zero))]).Proper :=
  listed_proper (show List.Pairwise (· < ·) ["a", "b"] by decide +kernel)
    (List.forall_mem_cons.mpr ⟨.null, List.forall_mem_singleton.mpr (.num _)⟩)

/-- The server sends the whole document. -/
def heardWhole : World Unit := reads idle (.notification ⟨"a", some whole⟩)

theorem containment_orders_listed : whole.Proper ∧ negated.Proper ∧ whole.contains whole = true ∧
    whole.contains part = true ∧ part.contains least = true ∧ whole.contains least = true ∧
    part.contains whole = false ∧ whole.contains negated = true ∧ negated.contains whole = true ∧
    (whole == negated) = true ∧ [idle, heardWhole].IsChain Onward ∧
    Passes [idle, heardWhole] (.ofSeconds 5) (.expectNotification "a" (some part) .next none) ∧
    Passes [idle, heardWhole] (.ofSeconds 5) (.expectNotification "a" (some least) .next none) := by
  obtain ⟨refl, trans, both, eases⟩ := containment_orders Unit
  have proper : whole.Proper := zeros_proper _
  have proper' : negated.Proper := zeros_proper _
  have some_of : whole.contains part = true := by decide +kernel
  have less : part.contains least = true := by decide +kernel
  have there : whole.contains negated = true := by decide +kernel
  have back : negated.contains whole = true := by decide +kernel
  have onward : [idle, heardWhole].IsChain Onward := .cons_cons (reads_onward .same _) (.singleton _)
  have passes : Passes [idle, heardWhole] (.ofSeconds 5)
      (.expectNotification "a" (some part) .next none) := by
    unfold Passes
    decide +kernel
  have eased : FixtureStep.Eased (.expectNotification "a" (some part) .next none)
      (.expectNotification "a" (some least) .next none) := .expectNotification less
  exact ⟨proper, proper', refl whole proper, some_of, less, trans whole part least some_of less,
    by decide +kernel, there, back, (both whole negated proper proper').mp ⟨there, back⟩, onward, passes,
    eases idle [heardWhole] onward _ _ _ eased passes⟩

end Fixture
end ServerProbe
