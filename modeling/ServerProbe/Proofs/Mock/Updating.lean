import ServerProbe.Proofs.Mock.Currency
import ServerProbe.Proofs.Mock.Farewell
import ServerProbe.Proofs.Mock.Rewriting
/-!
What an edit that was applied leaves of the open documents. As long as nobody else deals with documents
they are still as the edit has found them when it commits. So each document it names is moved on by one
version, to what all its changes have made of it, and the server is told so once.
-/

namespace ServerProbe.Mock

open Connection (sent)
open WorkspaceEdit (Drafted Ground Staged Target applyChanges commit commitAll ofParams)

variable {ρ : Type}

/-- What the client keeps of a document that is open. -/
def World.kept? (w : World ρ) (uri : String) : Option OpenDocument := w.connection.documents.find? uri

/-! ### What a server is told -/

/-- What the connection puts out on a question. -/
def Ask.out (a : Ask ρ) : List (Output Handler) := (a.world.connection.run (Beat.own a).inputs).2

/-- What a server is told of a document in a stretch. All of it comes from the routine itself, unless
somebody else has made up a notification. -/
structure Tells (uri : String) (w : World ρ) (beats : List (Beat ρ)) (filings : List Filing) : Prop where
  own : Filing.about uri (sent ((asks beats).flatMap Ask.out)) = filings
  all : (∀ u i, .other u i ∈ beats → ¬ i.Forges) →
    Filing.about uri (sent (told w beats)) = filings

section Stretch

variable {u v w : World ρ} {uri : String} {early late : List (Beat ρ)} {a : Ask ρ}

theorem Tells.append {first rest : List Filing} (flow : Flow u early v) (before : Tells uri u early first)
    (after : Tells uri v late rest) : Tells uri u (early ++ late) (first ++ rest) := by
  refine ⟨?_, fun honest => ?_⟩
  · rw [asks_append, List.flatMap_append, Connection.sent_append, Filing.about_append, before.own,
      after.own]
  · rw [flow.told_append, Connection.sent_append, Filing.about_append,
      before.all fun w i held => honest w i (List.mem_append_left _ held),
      after.all fun w i held => honest w i (List.mem_append_right _ held)]

theorem tells_own (uri : String) (a : Ask ρ) :
    Tells uri a.world [.own a] (Filing.about uri (sent a.out)) := by
  have single : history [Beat.own a] = (Beat.own a).inputs := List.append_nil _
  refine ⟨?_, fun _ => ?_⟩
  · exact congrArg (fun out => Filing.about uri (sent out)) (List.append_nil a.out)
  · rw [told, single]
    rfl

/-- Beats that leave a document alone. -/
structure Spared (uri : String) (u : World ρ) (beats : List (Beat ρ)) (v : World ρ) : Prop where
  kept : v.kept? uri = u.kept? uri
  untold : Tells uri u beats []

/-- Beats that move a document on by one version, to this text. Versions have 32 bits, and the one after
the greatest is the least. -/
structure Moved (uri text : String) (d : OpenDocument) (u : World ρ) (beats : List (Beat ρ))
    (v : World ρ) : Prop where
  held : u.kept? uri = some d
  now : v.kept? uri =
    some { d with document := { d.document with text, version := d.document.version + 1 } }
  told : Tells uri u beats [.changed (d.document.version + 1) text]

theorem Spared.append (flow : Flow u early v) (first : Spared uri u early v)
    (rest : Spared uri v late w) : Spared uri u (early ++ late) w :=
  ⟨rest.kept.trans first.kept, first.untold.append flow rest.untold⟩

theorem Flow.spared {beats : List (Beat ρ)} (flow : Flow u beats v)
    (each : ∀ b ∈ beats, Spared uri b.world [b] b.next) : Spared uri u beats v := by
  induction flow with
  | nil => exact ⟨rfl, rfl, fun _ => rfl⟩
  | @cons b beats v later ih =>
      have here : Flow b.world [b] b.next := .cons .nil
      exact (each b List.mem_cons_self).append here (ih fun c held => each c (List.mem_cons_of_mem _ held))

theorem Spared.moved {text : String} {d : OpenDocument} (flow : Flow u early v)
    (first : Spared uri u early v) (rest : Moved uri text d v late w) :
    Moved uri text d u (early ++ late) w :=
  ⟨first.kept.symm.trans rest.held, rest.now, first.untold.append flow rest.told⟩

theorem Moved.spared {text : String} {d : OpenDocument} (flow : Flow u early v)
    (first : Moved uri text d u early v) (rest : Spared uri v late w) :
    Moved uri text d u (early ++ late) w :=
  ⟨first.held, rest.kept.trans first.now, first.told.append flow rest.untold⟩

/-! ### What leaves a document alone -/

theorem spared_aside {w' : World ρ} (kept : w'.connection = w.connection) (uri : String) :
    Spared uri w [.aside w w' kept] w' :=
  ⟨congrArg (fun c : Connection Handler => c.documents.find? uri) kept, rfl, fun _ => rfl⟩

theorem spared_other {i : Input Handler} (other : ∀ c, i = .command c → ¬ c.IsFiling)
    (uri : String) : Spared uri w [.other w i] (w.input i) := by
  have deeds := Connection.step_deeds w.connection w.now i
  have unfiled : ∀ c : Command Handler, c.IsFiling → .input (.command c) ∉ w.connection.acts i :=
    fun c filing held => other c (Connection.mem_acts held).symm filing
  refine ⟨?_, rfl, fun honest => ?_⟩
  · rw [World.kept?, World.input_connection, deeds.documents_eq unfiled]
    rfl
  · have said : told w [.other w i] = (w.connection.step w.now i).2 := by
      rw [← Beat.run_single]
      rfl
    rw [said, Filing.about, deeds.untold unfiled fun j own => ?_]
    · rfl
    · rw [Connection.mem_acts own]
      exact honest w i List.mem_cons_self

theorem spared_looks (looks : Looks a.question) (uri : String) :
    Spared uri a.world [.own a] a.next := by
  have silent : a.out = [] := by
    obtain ⟨w, q⟩ := a
    cases looks with
    | file path => rfl
    | document other =>
        cases stopped : w.stopped with
        | true =>
            have none : (Beat.own ⟨w, .command (.document other)⟩).inputs = [] := if_pos stopped
            rw [Ask.out, none]
            rfl
        | false =>
            rw [Ask.out, Beat.inputs_live stopped, Beat.run_single]
            rfl
  have untold := tells_own uri a
  rw [silent] at untold
  exact ⟨congrArg (fun w => w.kept? uri) (looks.idle a.world), untold⟩

end Stretch

/-! ### Commits that succeed -/

/-- A draft is committed by a question. -/
def Lands (s : Staged) (a : Ask ρ) : Prop := Asked (commit s) [a] (.done (.ok ()))

theorem commit_asked {s : Staged} {own : List (Ask ρ)} {result : Except EditFault Unit}
    (asked : Asked (commit s) own (.done result)) : ∃ a, own = [a] := by
  cases target : s.target with
  | opened base =>
      rw [commit_opened target] at asked
      cases asked with
      | cons answered later =>
          obtain ⟨rfl, -⟩ := later.of_done
          exact ⟨_, rfl⟩
  | file path =>
      rw [commit_file target] at asked
      cases asked with
      | cons answered later =>
          obtain ⟨rfl, -⟩ := later.of_done
          exact ⟨_, rfl⟩

theorem commitAll_first {s : Staged} {rest : List Staged} {own : List (Ask ρ)}
    (asked : Asked (commitAll (s :: rest)) own (.done (.ok ()))) :
    ∃ a later, own = a :: later ∧ Lands s a ∧ Asked (commitAll rest) later (.done (.ok ())) := by
  rw [commitAll_cons] at asked
  obtain ⟨result, early, later, rfl, first, others⟩ := asked.of_bind_done
  obtain ⟨a, rfl⟩ := commit_asked first
  cases result with
  | error fault => cases others
  | ok _ => exact ⟨a, later, rfl, first, others⟩

theorem commitAll_lands {staged : List Staged} {own : List (Ask ρ)}
    (asked : Asked (commitAll staged) own (.done (.ok ()))) : ∀ a ∈ own, ∃ s ∈ staged, Lands s a := by
  induction staged generalizing own with
  | nil =>
      obtain ⟨rfl, -⟩ := asked.of_done
      exact fun a held => by cases held
  | cons s rest ih =>
      obtain ⟨a, later, rfl, lands, others⟩ := commitAll_first asked
      refine List.forall_mem_cons.mpr ⟨⟨s, List.mem_cons_self, lands⟩, fun b held => ?_⟩
      obtain ⟨t, there, lands⟩ := ih others b held
      exact ⟨t, List.mem_cons_of_mem s there, lands⟩

theorem commitAll_split {s : Staged} {early late : List Staged} {own : List (Ask ρ)}
    (asked : Asked (commitAll (early ++ s :: late)) own (.done (.ok ()))) :
    ∃ before a after, own = before ++ a :: after ∧ Asked (commitAll early) before (.done (.ok ())) ∧
      Lands s a ∧ Asked (commitAll late) after (.done (.ok ())) := by
  induction early generalizing own with
  | nil =>
      obtain ⟨a, after, rfl, lands, rest⟩ := commitAll_first asked
      exact ⟨[], a, after, rfl, .nil, lands, rest⟩
  | cons t early ih =>
      obtain ⟨b, later, rfl, first, others⟩ := commitAll_first asked
      obtain ⟨before, a, after, rfl, inner, lands, rest⟩ := ih others
      refine ⟨b :: before, a, after, rfl, ?_, lands, rest⟩
      rw [commitAll_cons]
      exact (first.bind _).append inner

section Lands

variable {s : Staged} {a : Ask ρ} {base : Int32} {path : String}

/-- A change that is accepted is made by a connection that has not stopped. -/
theorem answer_accepted {w : World ρ} {uri text : String} {base : Option Int32}
    {answer : Option (Except Failure Int)} (accepted : committed answer = .ok ())
    (answered : (w.answer (.command (.changeDocument uri text base))).2 = some answer) :
    w.stopped = false ∧ ∃ version, (w.connection.changeDocument uri text base).1 = .ok version := by
  rcases answer with _ | failure | version
  · cases accepted
  · cases failure <;> cases accepted
  · cases stopped : w.stopped with
    | true =>
        simp only [World.answer, stopped, if_true] at answered
        cases answered
    | false =>
        simp only [World.answer, stopped, Bool.false_eq_true, if_false] at answered
        exact ⟨rfl, version, Option.some.inj (Option.some.inj answered)⟩

theorem Lands.document (lands : Lands s a) (target : s.target = .opened base) :
    ∃ d, a.world.kept? s.uri = some d ∧ base = d.document.version ∧
      a.next.connection.documents = a.world.connection.documents.update s.uri { d with
        document := { d.document with text := s.text, version := d.document.version + 1 } } ∧
      a.out = [.wrote (Connection.notice Method.didChange
        (Payload.didChange s.uri (d.document.version + 1 : Int32) s.text))] := by
  rw [Lands, commit_opened target] at lands
  cases lands with
  | @cons w _ _ answer _ _ answered later =>
      have went : committed answer = .ok () := (Dialogue.done.inj later.of_done.2).symm
      obtain ⟨live, version, accepted⟩ := answer_accepted went answered
      obtain ⟨d, version, held, current, rfl, -, turn⟩ := Connection.changeDocument_accepted accepted
      have ran : w.connection.run (Beat.own ⟨w, .command (.changeDocument s.uri s.text (some base))⟩).inputs =
          (w.connection.changeDocument s.uri s.text (some base)).2 := by
        rw [Beat.inputs_live live, Beat.run_single]
        rfl
      rw [turn] at ran
      refine ⟨d, held, current base rfl, ?_, congrArg Prod.snd ran⟩
      have next := Beat.next_connection (.own ⟨w, .command (.changeDocument s.uri s.text (some base))⟩)
      exact congrArg Connection.documents (next.trans (congrArg Prod.fst ran))

theorem Lands.file (lands : Lands s a) (target : s.target = .file path) (uri : String) :
    Spared uri a.world [.own a] a.next := by
  rw [Lands, commit_file target] at lands
  cases lands with
  | @cons w _ _ answer _ _ answered later =>
      refine ⟨?_, rfl, fun _ => rfl⟩
      have next := Beat.next_connection (.own ⟨w, .writeFile path s.text⟩)
      exact congrArg (fun c => c.documents.find? uri) next

theorem read_changed (uri text : String) (version : Int32) :
    (sent [(.wrote (Connection.notice Method.didChange (Payload.didChange uri version text)) :
      Output Handler)]).filterMap Filing.read? = [Filing.changed version text].map (Prod.mk uri) :=
  List.filterMap_cons_some (Filing.read?_didChange uri text version)

theorem Lands.moves (lands : Lands s a) (target : s.target = .opened base) :
    ∃ d, base = d.document.version ∧ Moved s.uri s.text d a.world [.own a] a.next := by
  obtain ⟨d, held, current, documents, out⟩ := lands.document target
  refine ⟨d, current, held, ?_, ?_⟩
  · rw [World.kept?, documents, DocumentStore.find?_update held, Function.update_self]
  · have told := tells_own s.uri a
    rwa [out, Filing.about_same (read_changed _ _ _)] at told

theorem Lands.spares (lands : Lands s a) {uri : String}
    (apart : ∀ base, s.target = .opened base → uri ≠ s.uri) : Spared uri a.world [.own a] a.next := by
  cases target : s.target with
  | file path => exact lands.file target uri
  | opened base =>
      obtain ⟨d, held, -, documents, out⟩ := lands.document target
      refine ⟨?_, ?_⟩
      · rw [World.kept?, documents, DocumentStore.find?_update held, Function.update_of_ne (apart base target)]
        rfl
      · have told := tells_own uri a
        rwa [out, Filing.about_apart (apart base target) (read_changed _ _ _)] at told

end Lands

/-! ### Edits that were applied -/

/-- Nobody else deals with documents. -/
def Alone (beats : List (Beat ρ)) : Prop := ∀ u c, .other u (.command c) ∈ beats → ¬ c.IsFiling

section Alone

variable {u v w : World ρ} {uri : String} {beats before after : List (Beat ρ)}

theorem Alone.mono (alone : Alone beats) (sub : before ⊆ beats) : Alone before :=
  fun u c held => alone u c (sub held)

/-- What spares a document question by question, spares it. -/
theorem Flow.alone_spared (flow : Flow u beats v) (alone : Alone beats)
    (asked : ∀ a ∈ asks beats, Spared uri a.world [.own a] a.next) : Spared uri u beats v := by
  refine flow.spared fun b held => ?_
  cases b with
  | own a => exact asked a (mem_asks.mpr held)
  | aside w w' kept => exact spared_aside kept uri
  | other w i =>
      refine spared_other (fun c same => ?_) uri
      subst same
      exact alone w c held

/-- A document that is looked up is still as it was in the beginning. -/
theorem Flow.looked (flow : Flow u beats v) (alone : Alone beats)
    (looks : ∀ a ∈ asks beats, Looks a.question) {a : Ask ρ} (held : a ∈ asks beats) (uri : String) :
    a.world.kept? uri = u.kept? uri := by
  obtain ⟨before, after, rfl⟩ := List.append_of_mem (mem_asks.mp held)
  obtain ⟨upto, -⟩ := flow.split
  have spared : Spared uri u before a.world := by
    refine upto.alone_spared (alone.mono (by simp)) fun b asked => ?_
    exact spared_looks (looks b (asks_mono (by simp) asked)) uri
  exact spared.kept

/-- What an edit has found of a document is what was there. -/
theorem Surveyed.stood {changes : List FileEdit} {survey : List (Ask ρ)}
    {grounds : String → Option Ground} {g : Ground} (surveyed : Surveyed changes survey grounds)
    (here : ∀ a ∈ survey, a.world.kept? uri = u.kept? uri) (known : grounds uri = some g) :
    u.document? uri = g.document? := by
  obtain ⟨early, asked, late, change, rfl, rfl, found⟩ := surveyed.found known
  have first : ∀ w', ⟨w', .command (.document change.uri)⟩ ∈ asked →
      u.document? change.uri = w'.document? change.uri := by
    intro w' held
    have same := here ⟨w', .command (.document change.uri)⟩ (by simp [held])
    exact congrArg (Option.map OpenDocument.document) same.symm
  cases found with
  | @opened w' d live held => exact (first w' List.mem_cons_self).trans held
  | @file w' w'' path text live shut unversioned named read =>
      exact (first w' List.mem_cons_self).trans shut

/-- The commits of drafts leave every other document alone. -/
theorem Flow.committed_apart {staged : List Staged} (flow : Flow u beats v) (alone : Alone beats)
    (asked : Asked (commitAll staged) (asks beats) (.done (.ok ())))
    (apart : ∀ s ∈ staged, ∀ base, s.target = .opened base → uri ≠ s.uri) : Spared uri u beats v := by
  refine flow.alone_spared alone fun a held => ?_
  obtain ⟨s, there, lands⟩ := commitAll_lands asked a held
  exact lands.spares (apart s there)

/-- The draft of a document is the only one that touches it. -/
theorem Flow.committed_once {staged : List Staged} {s : Staged} {base : Int32} (flow : Flow u beats v)
    (alone : Alone beats) (asked : Asked (commitAll staged) (asks beats) (.done (.ok ())))
    (apart : staged.Pairwise fun s t => s.uri ≠ t.uri) (held : s ∈ staged)
    (target : s.target = .opened base) :
    ∃ d, base = d.document.version ∧ Moved s.uri s.text d u beats v := by
  obtain ⟨early, late, rfl⟩ := List.append_of_mem held
  obtain ⟨earlier, a, later, parts, first, lands, last⟩ := commitAll_split asked
  obtain ⟨before, after, rfl, rfl, rfl⟩ := asks_split parts
  obtain ⟨upto, onwards⟩ := flow.split
  obtain ⟨-, own, others⟩ := List.pairwise_append.mp apart
  obtain ⟨d, current, moved⟩ := lands.moves target
  have spared : Spared s.uri u before a.world :=
    upto.committed_apart (alone.mono (by simp)) first fun t there _ _ =>
      Ne.symm (others t there s List.mem_cons_self)
  have spared' : Spared s.uri a.next after v :=
    onwards.committed_apart (alone.mono (by simp)) last fun t there _ _ =>
      List.rel_of_pairwise_cons own there
  have here : Flow a.world [.own a] a.next := .cons (b := .own a) .nil
  exact ⟨d, current, spared.moved upto (moved.spared here spared')⟩

end Alone

/-- What has become of the open documents by an edit that was applied. -/
structure Updated (changes : List FileEdit) (w : World ρ) (beats : List (Beat ρ)) (v : World ρ) :
    Prop where
  /-- A document that is named is moved on to what all its changes, in listed order, make of its text. -/
  moved : ∀ uri d, w.kept? uri = some d → (∃ c ∈ changes, c.uri = uri) →
    ∃ text, applyChanges d.document.text (changes.filter fun c => c.uri == uri) = .ok text ∧
      Moved uri text d w beats v
  /-- Below the greatest version there is, the new version is exactly one higher. -/
  higher : ∀ uri d e, w.kept? uri = some d → v.kept? uri = some e → (∃ c ∈ changes, c.uri = uri) →
    d.document.version ≠ .maxValue → (e.document.version : Int) = (d.document.version : Int) + 1
  /-- The changes of a document were meant for the version it was at. -/
  current : ∀ uri d, w.kept? uri = some d → ∀ c ∈ changes, c.uri = uri →
    ∀ n, c.version = some n → n = d.document.version
  /-- Nothing becomes of what is not open, or is not named. -/
  others : ∀ uri, w.kept? uri = none ∨ (∀ c ∈ changes, c.uri ≠ uri) → Spared uri w beats v

/-- A document that is open and named has one draft, for the version it is at. -/
theorem drafted_open {w : World ρ} {changes : List FileEdit} {grounds : String → Option Ground}
    {staged : List Staged} (drafted : Drafted changes grounds staged)
    (stood : ∀ uri g, grounds uri = some g → w.document? uri = g.document?) {c : FileEdit}
    (listed : c ∈ changes) {d : OpenDocument} (held : w.kept? c.uri = some d) :
    ∃ s ∈ staged, s.uri = c.uri ∧ s.target = .opened d.document.version ∧
      (Ground.opened d.document).draft c.uri changes = .ok s.text := by
  obtain ⟨s, there, named⟩ := drafted.of_listed listed
  obtain ⟨g, known, target, draft⟩ := drafted.draft s there
  rw [named] at known draft
  have document : w.document? c.uri = some d.document := congrArg (Option.map OpenDocument.document) held
  have ground := document.symm.trans (stood c.uri g known)
  cases g with
  | file path text => cases ground
  | opened e =>
      obtain rfl := Option.some.inj ground
      exact ⟨s, there, named, target, draft⟩

theorem Moved.higher {text : String} {d e : OpenDocument} {beats : List (Beat ρ)}
    (moved : Moved uri text d u beats v) (now : v.kept? uri = some e)
    (below : d.document.version ≠ .maxValue) :
    (e.document.version : Int) = (d.document.version : Int) + 1 := by
  obtain rfl := Option.some.inj (moved.now.symm.trans now)
  exact DocumentStore.version_succ below

theorem applied_edit_updates {w v : World ρ} {params : Option Json} {beats : List (Beat ρ)}
    {how : HandlerEnd} (stretch : Stretch w (Handler.run params .workspaceEdits) beats v (.done how))
    (applies : Applies how) (alone : Alone beats) :
    ∃ changes, ofParams params = .ok changes ∧ Updated changes w beats v := by
  obtain ⟨changes, survey, commits, grounds, staged, read, parts, looks, surveyed, drafted, asked⟩ :=
    applied_asked stretch.asked applies
  obtain ⟨early, late, rfl, rfl, rfl⟩ := List.filterMap_eq_append_iff.mp parts
  obtain ⟨u, surveying, committing⟩ := stretch.flow.parts
  have before : Alone early := alone.mono (by simp)
  have after : Alone late := alone.mono (by simp)
  have spared : ∀ uri, Spared uri w early u := fun uri =>
    surveying.alone_spared before fun a held => spared_looks (looks a held) uri
  have stood : ∀ uri g, grounds uri = some g → w.document? uri = g.document? := fun uri g =>
    surveyed.stood fun a held => surveying.looked before looks held uri
  have moved : ∀ uri d, w.kept? uri = some d → (∃ c ∈ changes, c.uri = uri) →
      ∃ text, applyChanges d.document.text (changes.filter fun c => c.uri == uri) = .ok text ∧
        Moved uri text d w (early ++ late) v := by
    rintro uri d held ⟨c, listed, rfl⟩
    obtain ⟨s, there, named, target, draft⟩ := drafted_open drafted stood listed held
    obtain ⟨e, -, moved⟩ := committing.committed_once after asked drafted.apart there target
    rw [named] at moved
    obtain rfl : d = e := Option.some.inj (held.symm.trans ((spared c.uri).kept.symm.trans moved.held))
    exact ⟨s.text, (Ground.applyChanges_of_revised draft).1, (spared c.uri).moved surveying moved⟩
  refine ⟨changes, read, moved, ?_, ?_, ?_⟩
  · intro uri d e held now named below
    obtain ⟨text, -, on⟩ := moved uri d held named
    exact on.higher now below
  · rintro uri d held c listed rfl n version
    obtain ⟨s, -, -, -, draft⟩ := drafted_open drafted stood listed held
    have own : c ∈ changes.filter fun e => e.uri == c.uri := List.mem_filter.mpr ⟨listed, beq_self_eq_true _⟩
    obtain ⟨base, same, rfl⟩ := (Ground.applyChanges_of_revised draft).2 c own n version
    exact congrArg Int32.toInt (Target.opened.inj same).symm
  · intro uri either
    refine (spared uri).append surveying (committing.committed_apart after asked ?_)
    rintro s there base target rfl
    obtain ⟨g, known, same, -⟩ := drafted.draft s there
    rcases either with shut | unnamed
    · have document : none = g.document? :=
        (congrArg (Option.map OpenDocument.document) shut).symm.trans (stood s.uri g known)
      cases g with
      | opened e => cases document
      | file path text => cases target.symm.trans same
    · obtain ⟨c, listed, same⟩ := drafted.listed there
      exact unnamed c listed same

/-- Changes of an open document, with a change of a file between them. -/
def mingled : List (String × String) := [("file:///a", "1"), ("file:///./a", "2"), ("file:///a", "3")]

/-- The edit that makes them, while something else is told to the server. -/
def mingling : List (Beat Unit) × World Unit × Routine Handler HandlerEnd :=
  among busyDesk [[], [.command (.notify "textDocument/didSave" none)], [.deadline]] (insertions mingled)

theorem applied_edit_updates_mingled : ∃ beats v how,
    Stretch busyDesk (insertions mingled) beats v (.done how) ∧ Applies how ∧ Alone beats ∧
      (sent (told busyDesk beats)).length = 2 ∧ Updated (fronts mingled) busyDesk beats v ∧
      v.document? "file:///a" = some ⟨"plaintext", "31x", 1⟩ := by
  have stretch : Stretch busyDesk (insertions mingled) mingling.1 mingling.2.1 mingling.2.2 :=
    among_stretch _ _ _
  obtain ⟨how, ended, applies⟩ := applies_of_reported (s := mingling.2.2) (by decide +kernel)
  rw [ended] at stretch
  have alone : ∀ b ∈ mingling.1, ∀ u c, b = .other u (.command c) → ¬ c.IsFiling := by
    refine among_all (fun _ _ _ same => by cases same) (fun inputs held i given w u c same => ?_) _ _
    obtain ⟨rfl, rfl⟩ := Beat.other.inj same
    simp only [List.mem_cons, List.not_mem_nil, or_false] at held
    rcases held with rfl | rfl | rfl
    · cases given
    · cases List.mem_singleton.mp given
      exact id
    · cases List.mem_singleton.mp given
  obtain ⟨changes, read, updated⟩ :=
    applied_edit_updates stretch applies fun u c held => alone _ held u c rfl
  obtain rfl := Except.ok.inj ((ofParams_fronts _).symm.trans read)
  exact ⟨_, _, how, stretch, applies, fun u c held => alone _ held u c rfl, by decide +kernel, updated,
    by decide +kernel⟩

end ServerProbe.Mock
