import ServerProbe.Fixture.Replay
import ServerProbe.Proofs.Fixture.Filling
import ServerProbe.Proofs.Mock.Visit
/-!
When a step that is replayed passes. A request is answered while worlds go by, and a notification is
waited for; what counts is the answer, and what was there to be heard in time.
-/

namespace ServerProbe.Fixture

open Json (find? keys)
open Mock (World Handler window InTime heard)
open Mock.World (Onward visited)
open Rpc (Notification)

variable {ρ : Type}

theorem outcomeOf_passed {verdict : Except CheckFailure Unit} :
    outcomeOf verdict = .passed ↔ verdict = .ok () := by
  cases verdict with
  | ok a => exact iff_of_true rfl rfl
  | error failure => exact iff_of_false (fun same => by cases same) (fun same => by cases same)

/-! ### Answers -/

theorem requireContained_ok {expected actual : Json} :
    requireContained expected actual = .ok () ↔ actual.contains expected = true := by
  unfold requireContained Json.contains
  cases Json.mismatch? expected actual with
  | none => exact iff_of_true rfl rfl
  | some m => exact iff_of_false (fun same => by cases same) (fun same => by cases same)

theorem checkAnswer_success {answer : Answered} :
    checkAnswer answer .success = .ok () ↔ ∃ result, answer = .ok result := by
  cases answer with
  | ok result => exact iff_of_true rfl ⟨result, rfl⟩
  | error failure =>
      refine iff_of_false (fun same => ?_) fun ⟨result, same⟩ => by cases same
      cases failure <;> cases same

theorem checkAnswer_result {answer : Answered} {expected : Json} :
    checkAnswer answer (.result expected) = .ok () ↔
      ∃ result, answer = .ok result ∧ result.contains expected = true := by
  cases answer with
  | ok result =>
      refine requireContained_ok.trans ⟨fun held => ⟨result, rfl, held⟩, fun ⟨other, same, held⟩ => ?_⟩
      exact Except.ok.inj same ▸ held
  | error failure =>
      refine iff_of_false (fun same => ?_) fun ⟨result, same, _⟩ => by cases same
      cases failure <;> cases same

/-- The verdict on a request is that on the answer it gets. -/
theorem visited_request (wait : Span) (method : String) (params : Option Json) (expect : Expectation)
    (timeout : Option Span) (worlds : List (World ρ)) :
    (visited worlds (runStep wait (.request method params expect timeout))).result? =
      (visited worlds (Client.request method params timeout)).result?.map (checkAnswer · expect) :=
  World.result?_bind (Client.request method params timeout) (checkAnswer · expect) worlds

/-- What a request that was written with a result and no error expects: that result, unless it is null,
which is as good as none. -/
theorem expects_result {f : Filling} {ms : List (String × Json)} (distinct : (keys ms).Nodup)
    (requested : (find? "request" ms).isSome) {v : Json} (named : find? "result" ms = some v)
    (faultless : find? "error" ms = none) {step : FixtureStep}
    (read : readStep (f.fill (.obj ms)) = .ok step) : ∃ method params timeout,
      step = .request method params (if v.isNull then .success else .result (f.fill v)) timeout := by
  have filled : (keys (f.fillMembers ms)).Nodup := by rwa [Filling.keys_fillMembers]
  obtain ⟨documents, asks⟩ := readStep_obj filled read
  have asked : (find? "request" (f.fillMembers ms)).isSome := by
    rwa [Filling.find?_fillMembers, Option.isSome_map]
  obtain ⟨method, params, expect, timeout, rfl⟩ := asks asked
  have result := documents "result" (by decide)
  have error := documents "error" (by decide)
  rw [Filling.written?_fillMembers, written?, named, Option.filter_some] at result
  rw [Filling.written?_fillMembers, written?, faultless] at error
  refine ⟨method, params, timeout, ?_⟩
  cases null : v.isNull with
  | true =>
      rw [null] at result
      cases expect with
      | success => rfl
      | result expected => cases result
      | error expected => cases error
  | false =>
      rw [null] at result
      cases expect with
      | success => cases result
      | result expected =>
          obtain rfl := Option.some.inj result
          rfl
      | error expected => cases error

theorem forall₂_getElem? {α β : Type} {R : α → β → Prop} {as : List α} {bs : List β}
    (each : List.Forall₂ R as bs) {i : Nat} {a : α} (here : as[i]? = some a) :
    ∃ b, bs[i]? = some b ∧ R a b := by
  obtain ⟨inside, rfl⟩ := List.getElem?_eq_some_iff.mp here
  have within : i < bs.length := each.length_eq ▸ inside
  exact ⟨bs[i], List.getElem?_eq_getElem within, each.get inside within⟩

/-- A request step that passes just if the answer is a result of some kind, whatever worlds it comes in. -/
def PassesOn (ρ : Type) (accepts : Json → Prop) (step : FixtureStep) : Prop :=
  ∃ method params expect timeout, step = .request method params expect timeout ∧
    ∀ (wait : Span) (worlds : List (World ρ)) (answer : Answered),
      (visited worlds (Client.request method params timeout)).result? = some answer →
      ∃ verdict, (visited worlds (runStep wait step)).result? = some verdict ∧
        (outcomeOf verdict = .passed ↔ ∃ result, answer = .ok result ∧ accepts result)

theorem passesOn_request (method : String) (params : Option Json) (timeout : Option Span)
    {expect : Expectation} {accepts : Json → Prop}
    (checks : ∀ answer, checkAnswer answer expect = .ok () ↔ ∃ result, answer = .ok result ∧ accepts result) :
    PassesOn ρ accepts (.request method params expect timeout) := by
  refine ⟨method, params, expect, timeout, rfl, fun wait worlds answer answered => ?_⟩
  refine ⟨checkAnswer answer expect, ?_, outcomeOf_passed.trans (checks answer)⟩
  rw [visited_request, answered, Option.map_some]

/-- A request step that was written with a result passes if the answer is a result that contains it, with
the placeholders filled in. One that was written with null passes on any result. -/
theorem named_result_checked {files : FileTree} {text origin name : String} {given : Option String}
    {f : Fixture} {outline : Outline} {i : Nat} {ms : List (String × Json)} {v : Json}
    (read : parse files text origin given = .ok f) (outlined : readOutline? text = some (name, outline))
    (written : outline.steps[i]? = some (.obj ms)) (requested : (find? "request" ms).isSome)
    (named : find? "result" ms = some v) (faultless : find? "error" ms = none) :
    ∃ step, f.steps[i]? = some step ∧
      PassesOn ρ (fun result => v = .null ∨ result.contains (f.filling.fill v) = true) step := by
  obtain ⟨-, found, again, -, stepped⟩ := parse_eq_ok read
  obtain ⟨-, rfl⟩ := Prod.mk.inj (Option.some.inj (outlined.symm.trans again))
  have distinct : (keys ms).Nodup := by
    cases steps_proper outlined _ (List.mem_of_getElem? written) with
    | obj increasing _ => exact increasing.distinct
  obtain ⟨step, here, read⟩ := forall₂_getElem? stepped written
  obtain ⟨method, params, timeout, rfl⟩ := expects_result distinct requested named faultless read
  refine ⟨_, here, passesOn_request method params timeout fun answer => ?_⟩
  by_cases null : v = .null
  · subst null
    rw [Json.isNull, if_pos rfl, checkAnswer_success]
    exact exists_congr fun result => (and_iff_left (.inl rfl)).symm
  · have kept : v.isNull = false := by
      cases v with
      | null => exact absurd rfl null
      | _ => rfl
    rw [kept, if_neg Bool.false_ne_true, checkAnswer_result]
    exact exists_congr fun result => and_congr_right fun _ => (or_iff_right null).symm

/-- The first step of a text and the result it names, if it is a request with one and without an error. -/
def firstNamed? (text : String) : Option (List (String × Json) × Json) :=
  match readOutline? text with
  | some (_, ⟨_, _, _, .obj ms :: _⟩) =>
    if (find? "request" ms).isSome ∧ find? "error" ms = none then (find? "result" ms).map (ms, ·) else none
  | _ => none

theorem firstNamed?_eq_some {text : String} {ms : List (String × Json)} {v : Json}
    (first : firstNamed? text = some (ms, v)) : ∃ name outline, readOutline? text = some (name, outline) ∧
      outline.steps[0]? = some (.obj ms) ∧ (find? "request" ms).isSome ∧ find? "result" ms = some v ∧
      find? "error" ms = none := by
  unfold firstNamed? at first
  split at first
  · rename_i name _ _ _ ms' rest outlined
    split at first
    · rename_i asks
      obtain ⟨w, named, same⟩ := Option.map_eq_some_iff.mp first
      obtain ⟨rfl, rfl⟩ := Prod.mk.inj same
      exact ⟨name, _, outlined, rfl, asks.1, named, asks.2⟩
    · cases first
  · cases first

/-- A handshake of which the capabilities are checked. -/
def capabilitiesNamed : String :=
  "\x7b\"name\":\"n\",\"steps\":[\x7b\"request\":\"initialize\",\"result\":\x7b\"capabilities\":\x7b\x7d\x7d\x7d]\x7d"

theorem named_result_checked_capabilities : ∃ f name outline ms v,
    parse (.fresh ["w"]) capabilitiesNamed "/w/f.json" none = .ok f ∧
      readOutline? capabilitiesNamed = some (name, outline) ∧ outline.steps[0]? = some (.obj ms) ∧
      (find? "request" ms).isSome ∧ find? "result" ms = some v ∧ find? "error" ms = none ∧
      ∃ step, f.steps[0]? = some step ∧
        PassesOn Unit (fun result => v = .null ∨ result.contains (f.filling.fill v) = true) step := by
  have fixture : (readPlainly capabilitiesNamed).isSome := by decide +kernel
  have first : (firstNamed? capabilitiesNamed).isSome := by decide +kernel
  obtain ⟨f, held⟩ := Option.isSome_iff_exists.mp fixture
  obtain ⟨read, -, -⟩ := readPlainly_eq_some held
  obtain ⟨⟨ms, v⟩, first⟩ := Option.isSome_iff_exists.mp first
  obtain ⟨name, outline, outlined, written, requested, named, faultless⟩ := firstNamed?_eq_some first
  exact ⟨f, name, outline, ms, v, read, outlined, written, requested, named, faultless,
    named_result_checked read outlined written requested named faultless⟩

/-- A client that has not begun its session. -/
def idle : World Unit := .fresh .standard (.fresh ["w"])

/-- What a client comes to when it reads something. -/
def reads (w : World Unit) (message : Rpc.Message) : World Unit :=
  ({ w with inbound := Framing.encode message }).event.2

/-- The request of a handshake is answered. -/
def handshaken : World Unit :=
  reads (idle.drive (Client.request Method.initializeRequest none none)).1
    (.response ⟨.number 1, .ok (.ofMembers [("capabilities", .obj [])])⟩)

/-- A handshake of which the result is said to be null. -/
def nullNamed : String :=
  "\x7b\"name\":\"n\",\"steps\":[\x7b\"request\":\"initialize\",\"result\":null\x7d]\x7d"

/-- Whether the first step passes on a result that does not contain null. -/
def passesUnchecked (f : Fixture) : Bool :=
  match f.steps with
  | .request method params expect timeout :: _ =>
    match (visited [idle, handshaken] (Client.request method params timeout)).result? with
    | some (.ok result) =>
      !result.contains .null &&
        (visited [idle, handshaken] (runStep .zero (.request method params expect timeout))).result?.map outcomeOf
          == some .passed
    | _ => false
  | _ => false

/-- The step that names null passes on an answer that does not contain it. -/
theorem named_null_unchecked : ∃ f name outline ms method params expect timeout result,
    parse (.fresh ["w"]) nullNamed "/w/f.json" none = .ok f ∧
      readOutline? nullNamed = some (name, outline) ∧ outline.steps[0]? = some (.obj ms) ∧
      (find? "request" ms).isSome ∧ find? "result" ms = some .null ∧ find? "error" ms = none ∧
      f.steps[0]? = some (.request method params expect timeout) ∧
      (visited [idle, handshaken] (Client.request method params timeout)).result? = some (.ok result) ∧
      result.contains .null = false ∧
      (visited [idle, handshaken] (runStep .zero (.request method params expect timeout))).result?.map
        outcomeOf = some .passed := by
  have unchecked : (readPlainly nullNamed).any passesUnchecked = true := by decide +kernel
  have first : (firstNamed? nullNamed).any (fun p => p.2.isNull) = true := by decide +kernel
  obtain ⟨f, held, unchecked⟩ := (Option.any_eq_true _ _).mp unchecked
  obtain ⟨⟨ms, v⟩, first, null⟩ := (Option.any_eq_true _ _).mp first
  obtain ⟨read, -, -⟩ := readPlainly_eq_some held
  obtain ⟨name, outline, outlined, written, requested, named, faultless⟩ := firstNamed?_eq_some first
  have same : v = .null := by
    cases v with
    | null => rfl
    | _ => cases null
  subst same
  unfold passesUnchecked at unchecked
  split at unchecked
  · rename_i method params expect timeout rest steps
    split at unchecked
    · rename_i result answered
      obtain ⟨uncontained, passed⟩ := Bool.and_eq_true_iff.mp unchecked
      refine ⟨f, name, outline, ms, method, params, expect, timeout, result, read, outlined, written,
        requested, named, faultless, ?_, answered, (Bool.not_eq_true' _).mp uncontained, eq_of_beq passed⟩
      rw [steps]
      rfl
    · cases unchecked
  · cases unchecked

/-! ### Notifications -/

/-- Params that are absent are null, which does not contain an object. -/
theorem hasParams_empty {n : Notification} :
    Check.hasParams (.obj []) n = true ↔ ∃ members, n.params = some (.obj members) := by
  obtain ⟨method, params⟩ := n
  cases params with
  | none => exact iff_of_false Bool.false_ne_true fun ⟨members, same⟩ => by cases same
  | some v =>
      cases v with
      | obj members => exact iff_of_true rfl ⟨members, rfl⟩
      | _ => exact iff_of_false Bool.false_ne_true fun ⟨members, same⟩ => by cases same

/-- The verdict on a wait is that on the notification it finds. -/
theorem visited_expectNotification (wait : Span) (method : String) (params : Option Json) (mode : ExpectMode)
    (timeout : Option Span) (worlds : List (World ρ)) :
    (visited worlds (runStep wait (.expectNotification method params mode timeout))).result? =
      (visited worlds (Check.awaitNotification method (Check.hasParams (params.getD (.obj [])))
        (timeout.getD wait) mode)).result?.map (·.map fun _ => ()) :=
  World.result?_bind (Check.awaitNotification method (Check.hasParams (params.getD (.obj [])))
    (timeout.getD wait) mode) (·.map fun _ => ()) worlds

theorem passed_of_found {α : Type} (found : Option (Except CheckFailure α)) :
    (found.map (·.map fun _ => ())).map outcomeOf = some .passed ↔ ∃ a, found = some (.ok a) := by
  cases found with
  | none => exact iff_of_false (fun same => by cases same) fun ⟨a, same⟩ => by cases same
  | some verdict =>
      cases verdict with
      | ok a => exact iff_of_true rfl ⟨a, rfl⟩
      | error failure =>
          exact iff_of_false (fun same => by cases same) fun ⟨a, same⟩ => by cases same

variable {start : World ρ} {worlds : List (World ρ)}

/-- A notification that is expected without params is heard, within its time and in its window, if it has
an object for them. One with an array or with no params at all is passed over. It is assumed that between
two turns of an observer no more than 1024 notifications are published, so that none is dropped before
it has been recorded. -/
theorem expected_without_params (onward : (start :: worlds).IsChain Onward) (wait : Span) (method : String)
    (mode : ExpectMode) (timeout : Option Span) :
    (visited (start :: worlds) (runStep wait (.expectNotification method none mode timeout))).result?.map
        outcomeOf = some .passed ↔
      (timeout.getD wait).nanos ≤ Check.greatestWait.nanos ∧
        InTime (start.now + (timeout.getD wait).nanos)
          (fun v => ∃ n ∈ window mode start v, n.method = method ∧ ∃ members, n.params = some (.obj members))
          (start :: worlds) := by
  rw [visited_expectNotification, passed_of_found, Mock.visited_awaitNotification onward]
  simp only [Option.getD_none, Bool.and_eq_true, beq_iff_eq, hasParams_empty]

theorem reads_onward {w v : World Unit} (before : Onward w v) (message : Rpc.Message) :
    Onward w (reads v message) :=
  .happened (.elsewhere before rfl (Nat.le_refl _))

/-- The same world when some time has passed and nothing has happened. -/
def later (w : World Unit) (length : Span) : World Unit := { w with now := w.now + length.nanos }

theorem later_onward {w v : World Unit} (before : Onward w v) (length : Span) : Onward w (later v length) :=
  .elsewhere before rfl (Nat.le_add_right _ _)

/-- A notification of a method, with params of some kind. -/
def bears (method : String) (kind : Option Json → Bool) (n : Notification) : Bool :=
  n.method == method && kind n.params

def isObject : Option Json → Bool
  | some (.obj _) => true
  | _ => false

def isArray : Option Json → Bool
  | some (.arr _) => true
  | _ => false

theorem isObject_iff {params : Option Json} : isObject params = true ↔ ∃ members, params = some (.obj members) := by
  constructor
  · intro kind
    unfold isObject at kind
    split at kind
    · exact ⟨_, rfl⟩
    · cases kind
  · rintro ⟨members, rfl⟩
    rfl

/-- The server sends a notification with an empty object. -/
def heardObject : World Unit := reads idle (.notification ⟨"a", some (.obj [])⟩)

theorem expected_without_params_object : [idle, heardObject].IsChain Onward ∧
    (visited [idle, heardObject] (runStep (.ofSeconds 5) (.expectNotification "a" none .next none))).result?.map
      outcomeOf = some .passed := by
  have onward : [idle, heardObject].IsChain Onward := .cons_cons (reads_onward .same _) (.singleton _)
  have heard : (window .next idle heardObject).any (bears "a" isObject) = true := by decide +kernel
  obtain ⟨n, held, bears⟩ := List.any_eq_true.mp heard
  obtain ⟨method, kind⟩ := Bool.and_eq_true_iff.mp bears
  have early : ∀ u ∈ [idle], u.now < idle.now + (Span.ofSeconds 5).nanos :=
    List.forall_mem_singleton.mpr (by decide)
  refine ⟨onward, (expected_without_params onward _ _ _ _).mpr ⟨by decide, ?_⟩⟩
  exact ⟨[idle], heardObject, [], rfl, early, n, held, eq_of_beq method, isObject_iff.mp kind⟩

/-- The server sends two notifications, one with an array for its params and one without any. -/
def heardOthers : World Unit :=
  reads (reads idle (.notification ⟨"a", some (.arr [])⟩)) (.notification ⟨"a", none⟩)

/-- Both are in the window and in time, and the step fails. -/
theorem array_passed_over : [idle, heardOthers, later heardOthers (.ofSeconds 5)].IsChain Onward ∧
    (Span.ofSeconds 5).nanos ≤ Check.greatestWait.nanos ∧
    heardOthers.now < idle.now + (Span.ofSeconds 5).nanos ∧
    (∃ n ∈ window .next idle heardOthers, n.method = "a" ∧ ∃ items, n.params = some (.arr items)) ∧
    (∃ n ∈ window .next idle heardOthers, n.method = "a" ∧ n.params = none) ∧
    (visited [idle, heardOthers, later heardOthers (.ofSeconds 5)]
        (runStep (.ofSeconds 5) (.expectNotification "a" none .next none))).result?.map outcomeOf =
      some (.failed (CheckFailure.notSeen "`a` notification" (.ofSeconds 5)).message) := by
  have onward : [idle, heardOthers, later heardOthers (.ofSeconds 5)].IsChain Onward := by
    refine .cons_cons (reads_onward (reads_onward .same _) _) (.cons_cons ?_ (.singleton _))
    exact later_onward .same _
  have array : (window .next idle heardOthers).any (bears "a" isArray) = true := by decide +kernel
  have absent : (window .next idle heardOthers).any (bears "a" Option.isNone) = true := by decide +kernel
  refine ⟨onward, by decide, by decide +kernel, ?_, ?_, by decide +kernel⟩
  · obtain ⟨n, held, bears⟩ := List.any_eq_true.mp array
    obtain ⟨method, kind⟩ := Bool.and_eq_true_iff.mp bears
    refine ⟨n, held, eq_of_beq method, ?_⟩
    unfold isArray at kind
    split at kind
    · rename_i items params
      exact ⟨items, params⟩
    · cases kind
  · obtain ⟨n, held, bears⟩ := List.any_eq_true.mp absent
    obtain ⟨method, kind⟩ := Bool.and_eq_true_iff.mp bears
    exact ⟨n, held, eq_of_beq method, Option.isNone_iff_eq_none.mp kind⟩

end ServerProbe.Fixture
