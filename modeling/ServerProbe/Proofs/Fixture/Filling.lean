import Mathlib.Data.List.DropRight
import Mathlib.Data.List.Forall2
import ServerProbe.Proofs.Fixture.Step
import ServerProbe.Proofs.Json.Containment
import ServerProbe.Proofs.Rpc.RoundTrip
import ServerProbe.Proofs.Text.Replacement
/-!
What filling in the placeholders of a fixture does to its documents. Each text that is a value has every
placeholder replaced and holds none any more, at whatever depth it stands; all else is as it was written,
keys with placeholders in them included.
-/

namespace ServerProbe

open Json (Shaped find? keys)
open Text (Replaced Marked)

/-! ### Documents that differ in their texts -/

/-- Documents of one form and with the same keys, whose texts are related one by one. -/
inductive Json.Reworded (R : String → String → Prop) : Json → Json → Prop
  | null : Reworded R .null .null
  | bool (value : Bool) : Reworded R (.bool value) (.bool value)
  | num (value : Number) : Reworded R (.num value) (.num value)
  | str {s t : String} (related : R s t) : Reworded R (.str s) (.str t)
  | arr {vs ws : List Json} (each : List.Forall₂ (Reworded R) vs ws) : Reworded R (.arr vs) (.arr ws)
  | obj {ms ns : List (String × Json)} (same : keys ms = keys ns)
      (each : List.Forall₂ (Reworded R) (ms.map Prod.snd) (ns.map Prod.snd)) :
      Reworded R (.obj ms) (.obj ns)

namespace Fixture

namespace Filling

variable {f : Filling}

theorem fillItems_eq_map (f : Filling) (vs : List Json) : f.fillItems vs = vs.map f.fill := by
  induction vs with
  | nil => rfl
  | cons v vs ih => exact congrArg (f.fill v :: ·) ih

theorem fillMembers_eq_map (f : Filling) (ms : List (String × Json)) :
    f.fillMembers ms = ms.map fun m => (m.1, f.fill m.2) := by
  induction ms with
  | nil => rfl
  | cons m ms ih => exact congrArg ((m.1, f.fill m.2) :: ·) ih

@[simp] theorem keys_fillMembers (f : Filling) (ms : List (String × Json)) :
    keys (f.fillMembers ms) = keys ms := by
  rw [fillMembers_eq_map, keys, List.map_map]
  rfl

theorem fill_reworded {R : String → String → Prop} (related : ∀ s, R s (f.fillText s)) (v : Json) :
    v.Reworded R (f.fill v) := by
  cases v with
  | null => exact .null
  | bool value => exact .bool value
  | num value => exact .num value
  | str s => exact .str (related s)
  | arr vs =>
      rw [fill, fillItems_eq_map]
      refine .arr (List.forall₂_map_right_iff.mpr (List.forall₂_same.mpr fun v held => ?_))
      exact fill_reworded related v
  | obj ms =>
      rw [fill]
      refine .obj (keys_fillMembers f ms).symm ?_
      rw [fillMembers_eq_map, List.map_map]
      refine List.forall₂_map_left_iff.mpr (List.forall₂_map_right_iff.mpr (List.forall₂_same.mpr fun m held => ?_))
      exact fill_reworded related m.2
termination_by sizeOf v
decreasing_by
  · exact Json.sizeOf_item held
  · exact Json.sizeOf_member held

/-! ### Texts -/

/-- The placeholders and what they stand for. -/
def names (f : Filling) : List (List Char × List Char) :=
  [(workspacePlaceholder.toList, f.workspace.toList),
    (workspaceUriPlaceholder.toList, f.workspaceUri.toList)]

/-- A text with every placeholder replaced, so that none is left. -/
structure Filled (f : Filling) (s t : String) : Prop where
  replaced : Replaced f.names s.toList t.toList
  nameless : ∀ n ∈ f.names, ¬ n.1 <:+: t.toList

theorem fillText_replaced (marked : Marked '$' f.names) (s : String) :
    Replaced f.names s.toList (f.fillText s).toList := by
  unfold fillText
  split
  · have first := Text.replaceFrom_replaced (show workspaceUriPlaceholder.toList ≠ [] by decide)
      f.workspaceUri.toList s.toList
    have second := Text.replaceFrom_replaced (show workspacePlaceholder.toList ≠ [] by decide)
      f.workspace.toList (Text.replaceFrom workspaceUriPlaceholder.toList f.workspaceUri.toList 0 s.toList)
    have both : Replaced f.names s.toList _ := first.andThen marked second
    simpa only [Text.replace, String.toList_ofList] using both
  · rename_i absent
    refine Text.replaced_self fun n held inside => absent (Text.hasPart_iff.mpr ?_)
    -- Both placeholders begin with what has been looked for.
    have begins : "$\x7b".toList <+: n.1 := by
      simp only [names, List.mem_cons, List.not_mem_nil, or_false] at held
      obtain rfl | rfl := held
      · exact ⟨_, rfl⟩
      · exact ⟨_, rfl⟩
    exact begins.isInfix.trans inside

theorem fillText_filled (marked : Marked '$' f.names) (s : String) : f.Filled s (f.fillText s) :=
  ⟨fillText_replaced marked s, (fillText_replaced marked s).nameless marked⟩

/-- A path that has a URI begins with a slash, and its URI with the name of the scheme. -/
theorem begins_of_uri {path uri : String} (given : FileUri.ofDirectory? path = some uri) :
    (∃ rest, path.toList = '/' :: rest) ∧ ∃ rest, uri.toList = 'f' :: rest := by
  obtain ⟨whole, written, rfl⟩ := Option.map_eq_some_iff.mp given
  unfold FileUri.ofPath? at written
  split at written
  · rename_i absolute
    refine ⟨List.head?_eq_some_iff.mp (eq_of_beq absolute), ?_⟩
    obtain ⟨rest, schemed⟩ : ∃ rest, whole.toList = 'f' :: rest := by
      rw [← Option.some.inj written]
      unfold FileUri.ofSteps
      split
      · exact ⟨_, rfl⟩
      · rw [String.toList_append]
        exact ⟨_, rfl⟩
    rw [String.toList_ofList, schemed]
    change ∃ rest', List.rdropWhile (· == '/') ('f' :: rest) = 'f' :: rest'
    cases kept : List.rdropWhile (· == '/') ('f' :: rest) with
    | nil =>
        have none := List.rdropWhile_eq_nil_iff.mp kept 'f' List.mem_cons_self
        exact absurd none (by decide)
    | cons c others =>
        have first := List.rdropWhile_prefix (· == '/') (l := 'f' :: rest)
        rw [kept] at first
        obtain ⟨rfl, -⟩ := List.cons_prefix_cons.mp first
        exact ⟨others, rfl⟩
  · cases written

theorem marked (plain : '$' ∉ f.workspace.toList) (plain_uri : '$' ∉ f.workspaceUri.toList)
    (given : FileUri.ofDirectory? f.workspace = some f.workspaceUri) : Marked '$' f.names := by
  obtain ⟨⟨path, slash⟩, ⟨uri, scheme⟩⟩ := begins_of_uri given
  refine ⟨List.forall_mem_cons.mpr ⟨⟨_, rfl, by decide⟩, List.forall_mem_singleton.mpr ⟨_, rfl, by decide⟩⟩,
    List.forall_mem_cons.mpr ⟨plain, List.forall_mem_singleton.mpr plain_uri⟩, ?_⟩
  have apart : ∀ c, c ∉ workspacePlaceholder.toList → c ∉ workspaceUriPlaceholder.toList →
      ∀ n ∈ f.names, c ∉ n.1 := fun c first second =>
    List.forall_mem_cons.mpr ⟨first, List.forall_mem_singleton.mpr second⟩
  refine List.forall_mem_cons.mpr ⟨⟨_, _, slash, apart _ (by decide) (by decide)⟩, ?_⟩
  exact List.forall_mem_singleton.mpr ⟨_, _, scheme, apart _ (by decide) (by decide)⟩

/-! ### Members -/

theorem find?_fillMembers (f : Filling) (key : String) (ms : List (String × Json)) :
    find? key (f.fillMembers ms) = (find? key ms).map f.fill := by
  induction ms with
  | nil => rfl
  | cons m ms ih =>
      obtain ⟨name, v⟩ := m
      by_cases here : name = key
      · subst here
        rw [fillMembers, Json.find?_cons_self, Json.find?_cons_self, Option.map_some]
      · rw [fillMembers, Json.find?_cons_of_ne here, Json.find?_cons_of_ne here, ih]

theorem written?_fillMembers (f : Filling) (key : String) (ms : List (String × Json)) :
    written? key (f.fillMembers ms) = (written? key ms).map f.fill := by
  rw [written?, written?, find?_fillMembers]
  cases find? key ms with
  | none => rfl
  | some v => cases v <;> rfl

end Filling

/-! ### Whole fixtures -/

/-- The documents of a step are those of the members of an object, with the placeholders filled in. -/
def StepFilled (f : Filling) (written : Json) (step : FixtureStep) : Prop :=
  ∃ ms, written = .obj ms ∧ ∀ name ∈ documentKeys,
    Option.Rel (Json.Reworded f.Filled) (written? name ms) (step.document? name)

theorem option_rel_map {α β : Type} {R : α → β → Prop} {f : α → β} (related : ∀ a, R a (f a))
    (found : Option α) : Option.Rel R found (found.map f) := by
  cases found with
  | none => exact .none
  | some a => exact .some (related a)

theorem stepFilled_of_readStep {f : Filling} (marked : Marked '$' f.names) {v : Json} (proper : v.Proper)
    {step : FixtureStep} (read : readStep (f.fill v) = .ok step) : StepFilled f v step := by
  cases proper with
  | @obj ms increasing each =>
      have distinct : (keys (f.fillMembers ms)).Nodup := by
        rw [Filling.keys_fillMembers]
        exact increasing.distinct
      obtain ⟨documents, -⟩ := readStep_obj distinct read
      refine ⟨ms, rfl, fun name listed => ?_⟩
      rw [documents name listed, Filling.written?_fillMembers]
      exact option_rel_map (Filling.fill_reworded (Filling.fillText_filled marked)) _
  | _ => cases read

theorem readSteps_eq_ok {f : Filling} {n : Nat} {vs : List Json} {steps : List FixtureStep}
    (read : readSteps f n vs = .ok steps) :
    List.Forall₂ (fun v step => readStep (f.fill v) = .ok step) vs steps := by
  induction vs generalizing n steps with
  | nil =>
      obtain rfl := Except.ok.inj read
      exact .nil
  | cons v vs ih =>
      rw [readSteps] at read
      split at read
      · cases read
      · rename_i step first
        obtain ⟨rest, later, rfl⟩ := Rpc.map_eq_ok.mp read
        exact .cons first (ih later)

theorem Outline.put_proper {o o' : Outline} {name : String} {v : Json} (proper : v.Proper)
    (held : ∀ w ∈ o.steps, w.Proper) (given : o.put name v = .ok o') : ∀ w ∈ o'.steps, w.Proper := by
  unfold Outline.put at given
  split at given
  · obtain ⟨_, -, rfl⟩ := Rpc.map_eq_ok.mp given
    exact held
  · obtain ⟨_, -, rfl⟩ := Rpc.map_eq_ok.mp given
    exact held
  · obtain ⟨steps, read, rfl⟩ := Rpc.map_eq_ok.mp given
    cases proper with
    | @arr items each =>
        have all : items.mapM (m := Shaped) Except.ok = .ok (items.map id) := List.mapM_pure
        rw [List.map_id] at all
        obtain rfl := Except.ok.inj (read.symm.trans all)
        exact each
    | _ => cases read
  · obtain ⟨_, -, rfl⟩ := Rpc.map_eq_ok.mp given
    exact held

theorem parts_proper {v : Json} (proper : v.Proper) : ∀ w ∈ Rpc.parts v, w.Proper := by
  cases proper with
  | arr each => exact each
  | obj _ each => exact List.forall_mem_map.mpr each
  | _ => exact fun w held => by cases held

theorem steps_proper {text name : String} {outline : Outline}
    (read : readOutline? text = some (name, outline)) : ∀ v ∈ outline.steps, v.Proper := by
  simp only [readOutline?, Option.bind_eq_bind, Option.bind_eq_some_iff] at read
  obtain ⟨v, parsed, read⟩ := read
  split at read
  · obtain ⟨found, visited, rest⟩ := Option.bind_eq_some_iff.mp read
    obtain ⟨_, -, same⟩ := Option.bind_eq_some_iff.mp rest
    obtain ⟨-, rfl⟩ := Prod.mk.inj (Option.some.inj same)
    cases fields : shape.visit Outline.put ⟨none, none, none, []⟩ v with
    | error fault =>
        rw [fields] at visited
        cases visited
    | ok outline =>
        rw [fields] at visited
        obtain rfl := Option.some.inj visited
        have each := parts_proper (Json.parse?_proper parsed)
        exact Rpc.visit_preserves (fun _ _ u _ held => Outline.put_proper (each u held))
          (fun w held => by cases held) fields
  · cases read

/-- What the placeholders of a fixture stand for. -/
def filling (f : Fixture) : Filling := ⟨f.workspace, f.workspaceUri⟩

/-- A fixture holds the documents that are written in a text, with the placeholders filled in. -/
def FilledFrom (text : String) (f : Fixture) : Prop :=
  ∃ name outline, readOutline? text = some (name, outline) ∧
    Option.Rel (Json.Reworded f.filling.Filled) outline.handshake f.handshake ∧
    List.Forall₂ (StepFilled f.filling) outline.steps f.steps

/-- A fixture that has been read is that of its outline, with the placeholders filled in. -/
theorem parse_eq_ok {files : FileTree} {text origin : String} {given : Option String} {f : Fixture}
    (read : parse files text origin given = .ok f) :
    FileUri.ofDirectory? f.workspace = some f.workspaceUri ∧ ∃ outline,
      readOutline? text = some (f.name, outline) ∧ f.handshake = outline.handshake.map f.filling.fill ∧
      List.Forall₂ (fun v step => readStep (f.filling.fill v) = .ok step) outline.steps f.steps := by
  unfold parse at read
  split at read
  · cases read
  · rename_i name outline outlined
    dsimp only at read
    split at read
    · cases read
    · rename_i uri located
      split at read
      · cases read
      · rename_i steps stepped
        obtain rfl := Except.ok.inj read
        exact ⟨located, outline, outlined, rfl, readSteps_eq_ok stepped⟩

/-- In a fixture that has been read every placeholder is filled in, but for those in keys. -/
theorem placeholders_filled {files : FileTree} {text origin : String} {given : Option String}
    {f : Fixture} (read : parse files text origin given = .ok f) (plain : '$' ∉ f.workspace.toList)
    (plain_uri : '$' ∉ f.workspaceUri.toList) : FilledFrom text f := by
  obtain ⟨located, outline, outlined, handshake, stepped⟩ := parse_eq_ok read
  have marked := Filling.marked (f := f.filling) plain plain_uri located
  refine ⟨f.name, outline, outlined, ?_, ?_⟩
  · rw [handshake]
    exact option_rel_map (Filling.fill_reworded (Filling.fillText_filled marked)) _
  · have each := (List.forall₂_and_left _ _).mpr ⟨steps_proper outlined, stepped⟩
    exact each.imp fun v step ⟨proper, read⟩ => stepFilled_of_readStep marked proper read

/-- A fixture that is read where neither the path of the workspace nor its URI has a dollar sign. -/
def readPlainly (text : String) : Option Fixture :=
  match parse (.fresh ["w"]) text "/w/f.json" none with
  | .ok f => if '$' ∉ f.workspace.toList ∧ '$' ∉ f.workspaceUri.toList then some f else none
  | .error _ => none

theorem readPlainly_eq_some {text : String} {f : Fixture} (read : readPlainly text = some f) :
    parse (.fresh ["w"]) text "/w/f.json" none = .ok f ∧ '$' ∉ f.workspace.toList ∧
      '$' ∉ f.workspaceUri.toList := by
  unfold readPlainly at read
  split at read
  · rename_i held
    split at read
    · rename_i plain
      obtain rfl := Option.some.inj read
      exact ⟨held, plain⟩
    · cases read
  · cases read

/-- The workspace is named within a text, and twice in a row. -/
def namedTwice : String :=
  "\x7b\"name\":\"n\",\"initialize\":\x7b\"root\":\"$\x7bworkspace_uri\x7d\"\x7d,\"steps\":[\x7b\"notify\":\"a\",\"params\":[\"$\x7bworkspace\x7d/b:$\x7bworkspace\x7d$\x7bworkspace_uri\x7d\"]\x7d]\x7d"

theorem placeholders_filled_twice : ∃ f, parse (.fresh ["w"]) namedTwice "/w/f.json" none = .ok f ∧
    '$' ∉ f.workspace.toList ∧ '$' ∉ f.workspaceUri.toList ∧ FilledFrom namedTwice f := by
  have some : (readPlainly namedTwice).isSome := by decide +kernel
  obtain ⟨f, held⟩ := Option.isSome_iff_exists.mp some
  obtain ⟨read, plain, plain_uri⟩ := readPlainly_eq_some held
  exact ⟨f, read, plain, plain_uri, placeholders_filled read plain plain_uri⟩

/-- The workspace is named in a key. -/
def namedInKey : String :=
  "\x7b\"name\":\"n\",\"steps\":[\x7b\"notify\":\"a\",\"params\":\x7b\"$\x7bworkspace_uri\x7d\":null\x7d\x7d]\x7d"

def keepsName : FixtureStep → Bool
  | .notify _ (some (.obj [(key, _)])) => Text.hasPart workspaceUriPlaceholder.toList key.toList
  | _ => false

/-- It is read with the placeholder in the key. -/
theorem key_left_unfilled : ∃ f step ms key v,
    parse (.fresh ["w"]) namedInKey "/w/f.json" none = .ok f ∧ '$' ∉ f.workspace.toList ∧
      '$' ∉ f.workspaceUri.toList ∧ step ∈ f.steps ∧ step.document? "params" = some (.obj ms) ∧
      (key, v) ∈ ms ∧ workspaceUriPlaceholder.toList <:+: key.toList := by
  have kept : (readPlainly namedInKey).any (fun f => f.steps.any keepsName) = true := by decide +kernel
  obtain ⟨f, held, some⟩ := (Option.any_eq_true _ _).mp kept
  obtain ⟨step, listed, keeps⟩ := List.any_eq_true.mp some
  obtain ⟨read, plain, plain_uri⟩ := readPlainly_eq_some held
  unfold keepsName at keeps
  split at keeps
  · exact ⟨f, _, _, _, _, read, plain, plain_uri, listed, rfl, List.mem_cons_self, Text.hasPart_iff.mp keeps⟩
  · cases keeps

end Fixture
end ServerProbe
