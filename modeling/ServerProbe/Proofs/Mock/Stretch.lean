import ServerProbe.Mock.World
/-!
Stretches of a routine: what becomes of it among everything else that goes on in a world.

Between two questions of a routine others give commands, bytes arrive, time passes and files change.
The beats of a stretch tell all of it in order, and `asks` keeps what the routine does itself.
-/

namespace ServerProbe

theorem Dialogue.bind_assoc {Q : Type} {A : Q → Type} {α β γ : Type} (d : Dialogue Q A α)
    (f : α → Dialogue Q A β) (g : β → Dialogue Q A γ) :
    (d.bind f).bind g = d.bind fun a => (f a).bind g := by
  induction d with
  | done a => rfl
  | ask q next ih => exact congrArg (Dialogue.ask q) (funext ih)

namespace Mock

variable {ρ α β : Type}

/-- A question of a routine, and the world it is put to. -/
structure Ask (ρ : Type) where
  world : World ρ
  question : Question Handler

namespace Ask

def next (a : Ask ρ) : World ρ := (a.world.answer a.question).1

end Ask

/-- A routine comes to a later stage by questions that were answered. -/
inductive Asked : Routine Handler α → List (Ask ρ) → Routine Handler α → Prop
  | nil {r : Routine Handler α} : Asked r [] r
  | cons {w : World ρ} {q : Question Handler} {next : q.Answer → Routine Handler α}
      {answer : q.Answer} {asks : List (Ask ρ)} {s : Routine Handler α}
      (answered : (w.answer q).2 = some answer) (later : Asked (next answer) asks s) :
      Asked (.ask q next) (⟨w, q⟩ :: asks) s

namespace Asked

variable {r s t : Routine Handler α} {asks early late : List (Ask ρ)} {f : α → Routine Handler β}

theorem append (first : Asked r early s) (rest : Asked s late t) : Asked r (early ++ late) t := by
  induction first with
  | nil => exact rest
  | cons answered later ih => exact .cons answered (ih rest)

/-- The answers decide what a routine comes to. -/
theorem unique (one : Asked r asks s) (other : Asked r asks t) : s = t := by
  induction one with
  | nil =>
      cases other
      rfl
  | cons answered later ih =>
      cases other with
      | cons again other =>
          obtain rfl := Option.some.inj (answered.symm.trans again)
          exact ih other

theorem split (h : Asked r (early ++ late) t) : ∃ s, Asked r early s ∧ Asked s late t := by
  induction early generalizing r with
  | nil => exact ⟨r, .nil, h⟩
  | cons a early ih =>
      cases h with
      | cons answered later =>
          obtain ⟨s, first, rest⟩ := ih later
          exact ⟨s, .cons answered first, rest⟩

theorem of_done {a : α} (h : Asked (.done a) asks s) : asks = [] ∧ s = .done a := by
  cases h
  exact ⟨rfl, rfl⟩

theorem bind (h : Asked r asks s) (f : α → Routine Handler β) :
    Asked (r.bind f) asks (s.bind f) := by
  induction h with
  | nil => exact .nil
  | cons answered later ih => exact .cons answered ih

/-- A routine in two parts is in its first part, or has come to the second one. -/
theorem of_bind {u : Routine Handler β} (h : Asked (r.bind f) asks u) :
    (∃ s, Asked r asks s ∧ u = s.bind f) ∨
      ∃ a early late, asks = early ++ late ∧ Asked r early (.done a) ∧ Asked (f a) late u := by
  induction r generalizing asks with
  | done a => exact .inr ⟨a, [], asks, rfl, .nil, h⟩
  | ask q next ih =>
      cases h with
      | nil => exact .inl ⟨.ask q next, .nil, rfl⟩
      | cons answered later =>
          rcases ih _ later with ⟨s, first, rfl⟩ | ⟨a, early, late, rfl, first, rest⟩
          · exact .inl ⟨s, .cons answered first, rfl⟩
          · exact .inr ⟨a, _, late, rfl, .cons answered first, rest⟩

theorem of_bind_done {b : β} (h : Asked (r.bind f) asks (.done b)) :
    ∃ a early late, asks = early ++ late ∧ Asked r early (.done a) ∧ Asked (f a) late (.done b) := by
  rcases h.of_bind with ⟨s, first, same⟩ | parts
  · cases s with
    | done a =>
        refine ⟨a, asks, [], (List.append_nil asks).symm, first, ?_⟩
        rw [same]
        exact .nil
    | ask q next => cases same
  · exact parts

end Asked

/-! ### What a routine asks -/

/-- A routine with no other questions than these. -/
inductive Confined (P : Question Handler → Prop) : Routine Handler α → Prop
  | done {a : α} : Confined P (.done a)
  | ask {q : Question Handler} {next : q.Answer → Routine Handler α} (own : P q)
      (later : ∀ a, Confined P (next a)) : Confined P (.ask q next)

namespace Confined

variable {P Q : Question Handler → Prop} {r s : Routine Handler α}

theorem mono (h : Confined P r) (weaker : ∀ q, P q → Q q) : Confined Q r := by
  induction h with
  | done => exact .done
  | ask own later ih => exact .ask (weaker _ own) ih

theorem bind (first : Confined P r) {f : α → Routine Handler β} (rest : ∀ a, Confined P (f a)) :
    Confined P (r.bind f) := by
  induction first with
  | done => exact rest _
  | ask own later ih => exact .ask own ih

theorem asked {asks : List (Ask ρ)} (confined : Confined P r) (h : Asked r asks s) :
    Confined P s ∧ ∀ a ∈ asks, P a.question := by
  induction h with
  | nil => exact ⟨confined, fun a held => by cases held⟩
  | cons answered _ ih =>
      cases confined with
      | ask own later =>
          obtain ⟨rest, all⟩ := ih (later _)
          refine ⟨rest, fun a held => ?_⟩
          rcases List.mem_cons.mp held with rfl | after
          · exact own
          · exact all a after

end Confined

/-- A question that is answered at once in every world. -/
def Prompt (ρ : Type) (q : Question Handler) : Prop := ∀ w : World ρ, ((w.answer q).2).isSome

theorem Confined.drive {r : Routine Handler α} (prompt : Confined (Prompt ρ) r) (w : World ρ) :
    ∃ v a, w.drive r = (v, .done a) := by
  induction prompt generalizing w with
  | @done a => exact ⟨w, a, rfl⟩
  | @ask q next answered later ih =>
      obtain ⟨answer, found⟩ := Option.isSome_iff_exists.mp (answered w)
      obtain ⟨v, a, driven⟩ := ih answer (w.answer q).1
      refine ⟨v, a, ?_⟩
      have whole : w.answer q = ((w.answer q).1, some answer) := Prod.ext rfl found
      rw [World.drive, whole]
      exact driven

/-! ### Beats -/

/-- One of the things that happen: a question of the routine, an input that the connection gets from
elsewhere, or a change of anything but the connection. -/
inductive Beat (ρ : Type) where
  | own (a : Ask ρ)
  | other (w : World ρ) (i : Input Handler)
  | aside (w w' : World ρ) (kept : w'.connection = w.connection)

namespace Beat

def world : Beat ρ → World ρ
  | own a => a.world
  | other w _ => w
  | aside w _ _ => w

def next : Beat ρ → World ρ
  | own a => a.next
  | other w i => w.input i
  | aside _ w' _ => w'

def ask? : Beat ρ → Option (Ask ρ)
  | own a => some a
  | _ => none

theorem eq_own {b : Beat ρ} {a : Ask ρ} (h : b.ask? = some a) : b = own a := by
  cases b with
  | own a' => rw [Option.some.inj h]
  | _ => cases h

end Beat

/-- What the routine itself does in a stretch of beats. -/
def asks (beats : List (Beat ρ)) : List (Ask ρ) := beats.filterMap Beat.ask?

@[simp] theorem asks_append (a b : List (Beat ρ)) : asks (a ++ b) = asks a ++ asks b :=
  List.filterMap_append

theorem asks_own (a : List (Ask ρ)) : asks (a.map .own) = a := by
  rw [asks, List.filterMap_map]
  exact List.filterMap_some

theorem mem_asks {beats : List (Beat ρ)} {a : Ask ρ} : a ∈ asks beats ↔ .own a ∈ beats := by
  rw [asks, List.mem_filterMap]
  constructor
  · rintro ⟨b, held, own⟩
    rwa [← Beat.eq_own own]
  · exact fun held => ⟨_, held, rfl⟩

theorem asks_mono {some all : List (Beat ρ)} (h : some ⊆ all) : asks some ⊆ asks all :=
  fun _ held => mem_asks.mpr (h (mem_asks.mp held))

/-- A question stands among the beats where it stands among the questions. -/
theorem asks_split {beats : List (Beat ρ)} {early late : List (Ask ρ)} {a : Ask ρ}
    (h : asks beats = early ++ a :: late) :
    ∃ before after, beats = before ++ .own a :: after ∧ asks before = early ∧ asks after = late := by
  obtain ⟨before, rest, rfl, first, others⟩ := List.filterMap_eq_append_iff.mp h
  obtain ⟨quiet, b, after, rfl, silent, own, last⟩ := List.filterMap_eq_cons_iff.mp others
  obtain rfl := Beat.eq_own own
  refine ⟨before ++ quiet, after, by simp, ?_, last⟩
  rw [asks_append, ← first]
  have none : asks quiet = [] := List.filterMap_eq_nil_iff.mpr silent
  rw [none, List.append_nil, asks]

/-- Each beat begins where the one before it has led. -/
inductive Flow : World ρ → List (Beat ρ) → World ρ → Prop
  | nil {w : World ρ} : Flow w [] w
  | cons {b : Beat ρ} {beats : List (Beat ρ)} {v : World ρ} (later : Flow b.next beats v) :
      Flow b.world (b :: beats) v

namespace Flow

variable {u v w : World ρ} {b : Beat ρ} {early late : List (Beat ρ)}

theorem append (first : Flow u early v) (rest : Flow v late w) : Flow u (early ++ late) w := by
  induction first with
  | nil => exact rest
  | cons later ih => exact .cons (ih rest)

theorem parts (h : Flow u (early ++ late) w) : ∃ v, Flow u early v ∧ Flow v late w := by
  induction early generalizing u with
  | nil => exact ⟨u, .nil, h⟩
  | cons first early ih =>
      cases h with
      | cons later =>
          obtain ⟨v, before, after⟩ := ih later
          exact ⟨v, .cons before, after⟩

theorem split (h : Flow u (early ++ b :: late) w) : Flow u early b.world ∧ Flow b.next late w := by
  obtain ⟨v, before, after⟩ := h.parts
  cases after with
  | cons later => exact ⟨before, later⟩

end Flow

/-- A routine goes by a stretch of beats from one stage to another. -/
structure Stretch (w : World ρ) (r : Routine Handler α) (beats : List (Beat ρ)) (v : World ρ)
    (s : Routine Handler α) : Prop where
  flow : Flow w beats v
  asked : Asked r (asks beats) s

theorem Stretch.append {u v w : World ρ} {r s t : Routine Handler α} {early late : List (Beat ρ)}
    (first : Stretch u r early v s) (rest : Stretch v s late w t) :
    Stretch u r (early ++ late) w t := by
  refine ⟨first.flow.append rest.flow, ?_⟩
  rw [asks_append]
  exact first.asked.append rest.asked

/-! ### Undisturbed stretches -/

/-- A routine that is driven to its end has had a stretch of its own questions only. -/
theorem drive_stretch {w v : World ρ} {r : Routine Handler α} {a : α}
    (h : w.drive r = (v, .done a)) : ∃ own : List (Ask ρ), Stretch w r (own.map .own) v (.done a) := by
  induction r generalizing w with
  | done b =>
      obtain ⟨rfl, same⟩ := Prod.mk.inj h
      rw [same]
      exact ⟨[], .nil, .nil⟩
  | ask q next ih =>
      unfold World.drive at h
      split at h
      · rename_i w' answer answered
        obtain ⟨own, stretch⟩ := ih answer h
        obtain rfl : (w.answer q).1 = w' := congrArg Prod.fst answered
        refine ⟨⟨w, q⟩ :: own, Flow.cons (b := .own ⟨w, q⟩) stretch.flow, ?_⟩
        exact Asked.cons (congrArg Prod.snd answered) stretch.asked
      · cases q <;> cases (Prod.mk.inj h).2

/-- A routine that will not wait any more comes to its end by its own questions. -/
theorem Stretch.prompted {w v : World ρ} {r s : Routine Handler α} {beats : List (Beat ρ)}
    (stretch : Stretch w r beats v s) (prompt : Confined (Prompt ρ) s) :
    ∃ (own : List (Ask ρ)) (u : World ρ) (a : α), Stretch w r (beats ++ own.map .own) u (.done a) := by
  obtain ⟨u, a, driven⟩ := prompt.drive v
  obtain ⟨own, rest⟩ := drive_stretch driven
  exact ⟨own, u, a, stretch.append rest⟩

/-- A routine that never waits comes to its end from wherever it is. -/
theorem Stretch.finishes {w v : World ρ} {r s : Routine Handler α} {beats : List (Beat ρ)}
    (stretch : Stretch w r beats v s) (prompt : Confined (Prompt ρ) r) :
    ∃ (own : List (Ask ρ)) (u : World ρ) (a : α), Stretch w r (beats ++ own.map .own) u (.done a) :=
  stretch.prompted (prompt.asked stretch.asked).1

/-! ### Disturbed stretches -/

/-- The beats of inputs from elsewhere, and the world they lead to. -/
def disturb (w : World ρ) : List (Input Handler) → List (Beat ρ) × World ρ
  | [] => ([], w)
  | i :: rest =>
    let (beats, v) := disturb (w.input i) rest
    (.other w i :: beats, v)

theorem disturb_flow (inputs : List (Input Handler)) (w : World ρ) :
    Flow w (disturb w inputs).1 (disturb w inputs).2 ∧ asks (disturb w inputs).1 = [] := by
  induction inputs generalizing w with
  | nil => exact ⟨.nil, rfl⟩
  | cons i rest ih =>
      obtain ⟨flow, none⟩ := ih (w.input i)
      exact ⟨Flow.cons (b := .other w i) flow, none⟩

theorem disturb_all {P : Beat ρ → Prop} {inputs : List (Input Handler)}
    (each : ∀ i ∈ inputs, ∀ w : World ρ, P (.other w i)) (w : World ρ) : ∀ b ∈ (disturb w inputs).1, P b := by
  induction inputs generalizing w with
  | nil => exact fun b held => by cases held
  | cons i rest ih =>
      have others := ih (fun j held => each j (List.mem_cons_of_mem _ held)) (w.input i)
      exact List.forall_mem_cons.mpr ⟨each i List.mem_cons_self w, others⟩

/-- Runs a routine while others give inputs, the first of the plan before its first question, and so
on. -/
def among (w : World ρ) (plan : List (List (Input Handler))) :
    Routine Handler α → List (Beat ρ) × World ρ × Routine Handler α
  | .done a => ([], w, .done a)
  | .ask q next =>
    let (others, w) := disturb w (plan.headD [])
    match w.answer q with
    | (v, some answer) =>
      let (beats, end?) := among v plan.tail (next answer)
      (others ++ .own ⟨w, q⟩ :: beats, end?)
    | (_, none) => (others, w, .ask q next)

theorem among_stretch (r : Routine Handler α) (w : World ρ) (plan : List (List (Input Handler))) :
    Stretch w r (among w plan r).1 (among w plan r).2.1 (among w plan r).2.2 := by
  induction r generalizing w plan with
  | done a => exact ⟨.nil, .nil⟩
  | ask q next ih =>
      obtain ⟨flow, none⟩ := disturb_flow (plan.headD []) w
      unfold among
      dsimp only
      split
      · rename_i v answer answered
        obtain ⟨later, asked⟩ := ih answer v plan.tail
        obtain rfl := congrArg Prod.fst answered
        refine ⟨flow.append (Flow.cons (b := .own ⟨_, q⟩) later), ?_⟩
        rw [asks_append, none]
        exact Asked.cons (congrArg Prod.snd answered) asked
      · refine ⟨flow, ?_⟩
        rw [none]
        exact .nil

/-- What holds of the questions of a routine, and of every input of the plan. -/
theorem among_all {P : Beat ρ → Prop} {plan : List (List (Input Handler))} (own : ∀ a, P (.own a))
    (each : ∀ inputs ∈ plan, ∀ i ∈ inputs, ∀ w, P (.other w i)) (r : Routine Handler α) (w : World ρ) :
    ∀ b ∈ (among w plan r).1, P b := by
  induction r generalizing w plan with
  | done a => exact fun b held => by cases held
  | ask q next ih =>
      have first : ∀ i ∈ plan.headD [], ∀ w, P (.other w i) := by
        cases plan with
        | nil => exact fun i held => by cases held
        | cons inputs rest => exact each inputs List.mem_cons_self
      have others : ∀ b ∈ (disturb w (plan.headD [])).1, P b := disturb_all first w
      unfold among
      dsimp only
      split
      · rename_i v answer answered
        have rest := ih answer (fun inputs held => each inputs (List.mem_of_mem_tail held)) v
        exact List.forall_mem_append.mpr ⟨others, List.forall_mem_cons.mpr ⟨own _, rest⟩⟩
      · exact others

end Mock
end ServerProbe
