import ServerProbe.Proofs.Connection.Revision
import ServerProbe.Proofs.Mock.Applying
import ServerProbe.Proofs.Mock.Attendance
/-!
What an edit commits against what it was drafted on. Between the moment an edit finds out about a
document and the moment it commits its draft, others open, change and close documents. The version an
open document was at tells whether it has changed since, as long as it has stayed open and has not been
changed so often that its versions come round.
-/

namespace ServerProbe.Mock

open Connection (Revised)
open WorkspaceEdit (Ground Staged Target ofParams)

variable {ρ : Type}

/-- The document that is open under a URI. -/
def World.document? (w : World ρ) (uri : String) : Option Document := w.connection.documents.get? uri

/-! ### What a beat does to a document -/

/-- Somebody else closes a document for the last time. -/
def Beat.Closes (uri : String) (b : Beat ρ) : Prop :=
  (∃ w, b = .other w (.command (.closeDocument uri))) ∧ (b.world.document? uri).isSome ∧
    b.next.document? uri = none

/-- Somebody else opens a document. -/
def Beat.Opens (uri : String) (b : Beat ρ) : Prop :=
  ∃ w language text, b = .other w (.command (.openDocument uri language text)) ∧
    b.world.document? uri = none ∧ b.next.document? uri = some ⟨language, text, 0⟩

/-- A document goes on to its next version. -/
def Beat.Revises (uri : String) (b : Beat ρ) : Prop :=
  ∃ d text, b.world.document? uri = some d ∧
    b.next.document? uri = some { d with text, version := d.version + 1 }

/-- A document is closed, and opened anew. -/
def Reopened (uri : String) (beats : List (Beat ρ)) : Prop :=
  ∃ before closing between opening after, beats = before ++ closing :: between ++ opening :: after ∧
    closing.Closes uri ∧ opening.Opens uri

/-- A document goes on so often that it is at a version it was at before. -/
def CameRound (uri : String) (beats : List (Beat ρ)) : Prop :=
  ∃ changes : List (Beat ρ), changes.Sublist beats ∧ (∀ b ∈ changes, b.Revises uri) ∧
    UInt32.size ≤ changes.length

theorem input_revised (w : World ρ) (i : Input Handler) (uri : String) :
    Revised uri i (w.document? uri) ((w.input i).document? uri) := by
  rw [World.document?, World.document?, World.input_connection]
  exact Connection.step_revised w.connection w.now i uri

/-- A commit changes the document it is about, if that is still at its version, or nothing. -/
theorem change_revised (w : World ρ) (uri other text : String) (base : Int32) :
    (w.answer (.command (.changeDocument uri text (some base)))).1.document? other = w.document? other ∨
      ∃ d, other = uri ∧ w.document? other = some d ∧ base = d.version ∧
        (w.answer (.command (.changeDocument uri text (some base)))).1.document? other =
          some { d with text, version := d.version + 1 } := by
  by_cases stopped : w.stopped = true
  · refine .inl ?_
    simp only [World.answer, stopped, if_true]
  · have asked : (w.answer (.command (.changeDocument uri text (some base)))).1 =
        w.input (.command (.changeDocument uri text (some base))) := by
      simp only [World.answer, stopped]
      rfl
    rw [asked]
    have revised := input_revised w (.command (.changeDocument uri text (some base))) other
    generalize (w.input _).document? other = after at revised ⊢
    generalize w.document? other = before at revised ⊢
    cases revised with
    | kept => exact .inl rfl
    | changed _ _ current => exact .inr ⟨_, rfl, rfl, current base rfl, rfl⟩

theorem committed_document (w : World ρ) (s : Staged) (uri : String) :
    (w.answer (commitQuestion s)).1.document? uri = w.document? uri ∨
      ∃ d, uri = s.uri ∧ w.document? uri = some d ∧ s.target = .opened d.version ∧
        (w.answer (commitQuestion s)).1.document? uri =
          some { d with text := s.text, version := d.version + 1 } := by
  unfold commitQuestion
  cases s.target with
  | opened base =>
      rcases change_revised w s.uri uri s.text base with kept | ⟨d, same, held, rfl, changed⟩
      · exact .inl kept
      · exact .inr ⟨d, same, held, rfl, changed⟩
  | file path =>
      refine .inl ?_
      simp only [World.answer]
      split <;> rfl

/-- What a beat does to a document while an edit runs: it moves it on by one version, or somebody else
closes or opens it. -/
inductive Beat.Affects (uri : String) (b : Beat ρ) : Prop
  | kept (same : b.next.document? uri = b.world.document? uri)
  | revised (revises : b.Revises uri)
  | closed (closes : b.Closes uri)
  | opened (opens : b.Opens uri)

/-- What a routine asks in some beats are questions of an edit. -/
def Editing (beats : List (Beat ρ)) : Prop := ∀ a ∈ asks beats, Edits a.question

theorem Editing.mono {some all : List (Beat ρ)} (h : Editing all) (sub : some ⊆ all) : Editing some :=
  fun a held => h a (asks_mono sub held)

theorem Beat.affects {b : Beat ρ} (editing : Editing [b]) (uri : String) : b.Affects uri := by
  cases b with
  | aside w w' kept => exact .kept (congrArg (fun c => c.documents.get? uri) kept)
  | own a =>
      obtain ⟨w, q⟩ := a
      have asked : Edits q := editing ⟨w, q⟩ List.mem_cons_self
      cases asked with
      | looks looks => exact .kept (congrArg (fun w => w.document? uri) (looks.idle w))
      | commits s =>
          rcases committed_document w s uri with same | ⟨d, -, held, -, changed⟩
          · exact .kept same
          · exact .revised ⟨_, _, held, changed⟩
  | other w i =>
      have revised := input_revised w i uri
      generalize before : w.document? uri = d at revised
      generalize after : (w.input i).document? uri = e at revised
      cases revised with
      | kept => exact .kept (after.trans before.symm)
      | opened language text => exact .opened ⟨w, language, text, rfl, before, after⟩
      | changed text => exact .revised ⟨_, _, before, after⟩
      | closed => exact .closed ⟨⟨w, rfl⟩, Option.isSome_of_mem before, after⟩

/-! ### What a stretch does to a document -/

variable {u v w : World ρ} {beats : List (Beat ρ)} {uri : String}

/-- A document that is not open is opened by somebody else before it is. -/
theorem Flow.opens (flow : Flow u beats w) (editing : Editing beats) (shut : u.document? uri = none) :
    w.document? uri = none ∨ ∃ before b after, beats = before ++ b :: after ∧ b.Opens uri := by
  induction flow with
  | nil => exact .inl shut
  | @cons b beats w later ih =>
      have here : b.Affects uri := Beat.affects (editing.mono (by simp)) uri
      cases here with
      | kept same =>
          rcases ih (editing.mono (by simp)) (same.trans shut) with none |
              ⟨before, c, after, rfl, opens⟩
          · exact .inl none
          · exact .inr ⟨b :: before, c, after, rfl, opens⟩
      | revised revises =>
          obtain ⟨_, _, held, -⟩ := revises
          rw [shut] at held
          cases held
      | closed closes =>
          have was := closes.2.1
          rw [shut] at was
          cases was
      | opened opens => exact .inr ⟨[], b, beats, rfl, opens⟩

/-- What has become of a document in some beats, all of which left it open: each change of it counts
one version. -/
structure Later (uri : String) (beats : List (Beat ρ)) (d e : Document) (changes : List (Beat ρ)) :
    Prop where
  among : changes.Sublist beats
  each : ∀ b ∈ changes, b.Revises uri
  version : e.version = d.version + .ofNat changes.length
  unchanged : changes = [] → e = d

theorem Later.nil {d : Document} : Later uri ([] : List (Beat ρ)) d d [] :=
  ⟨.slnil, fun _ none => (by cases none), (Int32.add_zero _).symm, fun _ => rfl⟩

theorem Later.kept {d e : Document} {changes : List (Beat ρ)} (h : Later uri beats d e changes)
    (b : Beat ρ) : Later uri (b :: beats) d e changes := { h with among := h.among.cons b }

theorem Later.revised {b : Beat ρ} {d e : Document} {text : String} {changes : List (Beat ρ)}
    (revises : b.Revises uri) (h : Later uri beats { d with text, version := d.version + 1 } e changes) :
    Later uri (b :: beats) d e (b :: changes) := by
  refine ⟨h.among.cons_cons b, List.forall_mem_cons.mpr ⟨revises, h.each⟩, ?_, fun none => by cases none⟩
  calc e.version
    _ = d.version + 1 + .ofNat changes.length := h.version
    _ = d.version + (.ofNat changes.length + 1) := by rw [Int32.add_assoc, Int32.add_comm 1]
    _ = d.version + .ofNat (b :: changes).length := by rw [List.length_cons, Int32.ofNat_add]; rfl

/-- A document that is at its version again has not been changed, or a multiple of all versions. -/
theorem Later.again {d e : Document} {changes : List (Beat ρ)} (h : Later uri beats d e changes)
    (version : e.version = d.version) : e = d ∨ CameRound uri beats := by
  have none : Int32.ofNat changes.length = 0 := Int32.left_eq_add.mp (version.symm.trans h.version)
  have nought : (changes.length : Int).bmod (2 ^ 32) = 0 :=
    Int32.toInt_ofNat'.symm.trans (congrArg Int32.toInt none)
  have round : UInt32.size ∣ changes.length := Int.natCast_dvd_natCast.mp (Int.dvd_of_bmod_eq_zero nought)
  rcases Nat.eq_zero_or_pos changes.length with empty | some
  · exact .inl (h.unchanged (List.eq_nil_of_length_eq_zero empty))
  · exact .inr ⟨changes, h.among, h.each, Nat.le_of_dvd some round⟩

/-- An open document stays open and only goes on from version to version, until somebody else closes
it. -/
theorem Flow.closes (flow : Flow u beats w) (editing : Editing beats) {d : Document}
    (held : u.document? uri = some d) :
    (∃ e changes, w.document? uri = some e ∧ Later uri beats d e changes) ∨
      ∃ before b after, beats = before ++ b :: after ∧ b.Closes uri := by
  induction flow generalizing d with
  | nil => exact .inl ⟨d, [], held, .nil⟩
  | @cons b beats w later ih =>
      have here : b.Affects uri := Beat.affects (editing.mono (by simp)) uri
      cases here with
      | kept same =>
          rcases ih (editing.mono (by simp)) (same.trans held) with ⟨e, changes, held, more⟩ |
              ⟨before, c, after, rfl, closes⟩
          · exact .inl ⟨e, changes, held, more.kept b⟩
          · exact .inr ⟨b :: before, c, after, rfl, closes⟩
      | revised revises =>
          obtain ⟨d', text, was, now⟩ := revises
          rw [held] at was
          obtain rfl := Option.some.inj was
          rcases ih (editing.mono (by simp)) now with ⟨e, changes, held', more⟩ |
              ⟨before, c, after, rfl, closes⟩
          · exact .inl ⟨e, b :: changes, held', .revised ⟨_, _, held, now⟩ more⟩
          · exact .inr ⟨b :: before, c, after, rfl, closes⟩
      | closed closes => exact .inr ⟨[], b, beats, rfl, closes⟩
      | opened opens =>
          obtain ⟨-, -, -, -, shut, -⟩ := opens
          rw [held] at shut
          cases shut

/-- A document found open at the version it was at has not been changed, unless it was reopened or its
versions have come round. -/
theorem Flow.current (flow : Flow u beats w) (editing : Editing beats) {d e : Document}
    (seen : u.document? uri = some d) (held : w.document? uri = some e)
    (version : e.version = d.version) : e = d ∨ Reopened uri beats ∨ CameRound uri beats := by
  rcases flow.closes editing seen with ⟨e', changes, held', more⟩ | ⟨before, b, rest, rfl, closes⟩
  · rw [held] at held'
    obtain rfl := Option.some.inj held'
    exact (more.again version).imp_right .inr
  · rcases flow.split.2.opens (editing.mono (by simp)) closes.2.2 with shut |
        ⟨between, c, after, rfl, opens⟩
    · rw [held] at shut
      cases shut
    · exact .inr (.inl ⟨before, b, between, c, after, by simp, closes, opens⟩)

/-! ### What is committed -/

/-- Where a commit comes from, and what it finds. -/
inductive Committed (changes : List FileEdit) (before : List (Beat ρ)) (a : Ask ρ) : Prop
  /-- The draft of a document as it was found open. If the commit goes through, the document is still
  what it was, unless it was closed and opened anew in between, or changed until its versions came
  round. -/
  | document {early window : List (Beat ρ)} {w : World ρ} {uri text : String} {d : Document}
      (asked : a.question = .command (.changeDocument uri text (some d.version)))
      (since : before = early ++ .own ⟨w, .command (.document uri)⟩ :: window)
      (seen : w.document? uri = some d)
      (drafted : (Ground.opened d).draft uri changes = .ok text)
      (made : a.next.document? uri = a.world.document? uri ∨
        ∃ e, a.world.document? uri = some e ∧ e.version = d.version ∧
          (e = d ∨ Reopened uri window ∨ CameRound uri window) ∧
          a.next.document? uri = some { e with text, version := e.version + 1 })
  /-- The draft of a file whose document was not open. If it is by now, it was opened in between. -/
  | file {early window : List (Beat ρ)} {w w' : World ρ} {uri path old text : String}
      (asked : a.question = .writeFile path text) (named : FileUri.toPath? uri = some path)
      (since : before = early ++ .own ⟨w, .command (.document uri)⟩ :: window)
      (shut : w.document? uri = none)
      (seen : .own ⟨w', .readFile path⟩ ∈ window) (read : w'.files.readText path = .ok old)
      (drafted : (Ground.file path old).draft uri changes = .ok text)
      (still : a.world.document? uri = none ∨
        ∃ before b after, window = before ++ b :: after ∧ b.Opens uri)

theorem Flow.since {early window : List (Beat ρ)} {q : Question Handler}
    (flow : Flow u (early ++ .own ⟨w, q⟩ :: window) v) (looks : Looks q) : Flow w window v := by
  have onwards := flow.split.2
  have idle : (Beat.own ⟨w, q⟩).next = w := looks.idle w
  rwa [idle] at onwards

section Commit

variable {changes : List FileEdit} {before early window : List (Beat ρ)} {a : Ask ρ} {d : Staged}

theorem Committed.of_opened {doc : Document} (committing : a.question = commitQuestion d)
    (target : d.target = .opened doc.version)
    (drafted : (Ground.opened doc).draft d.uri changes = .ok d.text)
    (since : before = early ++ .own ⟨w, .command (.document d.uri)⟩ :: window)
    (seen : w.document? d.uri = some doc) (flow : Flow u before a.world) (editing : Editing before) :
    Committed changes before a := by
  have asked : a.question = .command (.changeDocument d.uri d.text (some doc.version)) := by
    rw [committing, commitQuestion, target]
  refine .document asked since seen drafted ?_
  rw [since] at flow editing
  rw [Ask.next, committing]
  rcases committed_document a.world d d.uri with kept | ⟨e, -, held, target', made⟩
  · exact .inl kept
  · rw [target] at target'
    have version : e.version = doc.version := (Target.opened.inj target').symm
    have current := (flow.since (.document _)).current (editing.mono (by simp)) seen held version
    exact .inr ⟨e, held, version, current, made⟩

theorem Committed.of_file {w' : World ρ} {path old : String}
    (committing : a.question = commitQuestion d)
    (target : d.target = .file path) (named : FileUri.toPath? d.uri = some path)
    (drafted : (Ground.file path old).draft d.uri changes = .ok d.text)
    (since : before = early ++ .own ⟨w, .command (.document d.uri)⟩ :: window)
    (shut : w.document? d.uri = none) (seen : .own ⟨w', .readFile path⟩ ∈ window)
    (read : w'.files.readText path = .ok old) (flow : Flow u before a.world)
    (editing : Editing before) : Committed changes before a := by
  have asked : a.question = .writeFile path d.text := by
    rw [committing, commitQuestion, target]
  rw [since] at flow editing
  have still := (flow.since (.document _)).opens (editing.mono (by simp)) shut
  exact .file asked named since shut seen read drafted still

end Commit

theorem edit_current {w v : World ρ} {params : Option Json} {beats before after : List (Beat ρ)}
    {s : Routine Handler HandlerEnd} {a : Ask ρ}
    (stretch : Stretch w (Handler.run params .workspaceEdits) beats v s)
    (split : beats = before ++ .own a :: after) :
    a.next = a.world ∨ ∃ changes, ofParams params = .ok changes ∧ Committed changes before a := by
  by_cases looks : Looks a.question
  · exact .inl (looks.idle a.world)
  · refine .inr ?_
    have asked := stretch.asked
    have editing : Editing beats := ((run_edits params).asked asked).2
    have flow := stretch.flow
    rw [split] at asked editing flow
    rw [asks_append] at asked
    cases read : ofParams params with
    | error fault =>
        rw [run_unread read] at asked
        exact absurd asked.of_done.1 (by simp [asks, Beat.ask?])
    | ok changes =>
        refine ⟨changes, rfl, ?_⟩
        obtain ⟨survey, made, grounds, staged, parts, surveyed, drafted, d, held, committing⟩ :=
          committing read asked looks
        obtain ⟨g, known, target, draft⟩ := drafted.draft d held
        obtain ⟨x, here, y, change, rfl, named, found⟩ := surveyed.found known
        have upto : Flow w before a.world := flow.split.1
        have until_then : Editing before := editing.mono (by simp)
        cases found with
        | @opened w₀ doc live held =>
            have first : asks before = x ++ ⟨w₀, .command (.document change.uri)⟩ :: (y ++ made) := by
              rw [parts]
              simp
            obtain ⟨early, window, since, -, -⟩ := asks_split first
            rw [named] at since held
            exact .of_opened committing target draft since held upto until_then
        | @file w₀ w₁ path text live closed unversioned path_named read =>
            have first : asks before = x ++ ⟨w₀, .command (.document change.uri)⟩ ::
                (⟨w₁, .readFile path⟩ :: (y ++ made)) := by
              rw [parts]
              simp
            obtain ⟨early, window, since, -, rest⟩ := asks_split first
            have seen : .own ⟨w₁, .readFile path⟩ ∈ window := by
              rw [← mem_asks, rest]
              exact List.mem_cons_self
            rw [named] at since closed path_named
            exact .of_file committing target path_named draft since closed seen read upto until_then

/-! ### Overtaken edits -/

/-- The text that a question commits, if any, and the text of a document before and after it. -/
def Ask.glance (uri : String) (a : Ask ρ) : Option String × Option String × Option String :=
  let text := match a.question with
    | .command (.changeDocument _ text _) => some text
    | .writeFile _ text => some text
    | _ => none
  (text, (a.world.document? uri).map Document.text, (a.next.document? uri).map Document.text)

/-- A world whose session is ready, with the text "x" in a file and some documents open. -/
def desk (documents : List (String × OpenDocument)) : World Unit :=
  { World.fresh .standard ⟨[], [([], none), (["a"], some (Utf8.encode "x"))]⟩ with
    connection := { Connection.fresh .standard with
      session := ⟨.initialized, none, none⟩, documents := ⟨documents⟩ } }

def busyDesk : World Unit := desk [("file:///a", ⟨⟨"plaintext", "x", 0⟩, 1⟩)]

/-- An update that is lost when a document is reopened before the commit; a file that is rewritten
although its document was opened in the meantime; and one that is rewritten although its document has
been open all along, under another spelling of its URI. -/
theorem edits_overtaken :
    (∃ beats v s, Stretch busyDesk (insertions [("file:///a", "2")]) beats v s ∧
      (asks beats).map (Ask.glance "file:///a") =
        [(none, some "x", some "x"), (some "2x", some "y", some "2x")]) ∧
    (∃ beats v s, Stretch (desk []) (insertions [("file:///a", "2")]) beats v s ∧
      (asks beats).map (Ask.glance "file:///a") =
        [(none, none, none), (none, none, none), (some "2x", some "y", some "y")]) ∧
    ∃ beats v s, Stretch busyDesk (insertions [("file:///./a", "2")]) beats v s ∧
      (asks beats).map (Ask.glance "file:///a") =
        [(none, some "x", some "x"), (none, some "x", some "x"), (some "2x", some "x", some "x")] := by
  refine ⟨⟨_, _, _, among_stretch _ _ [[], [.command (.closeDocument "file:///a"),
      .command (.openDocument "file:///a" "plaintext" "y")]], ?_⟩,
    ⟨_, _, _, among_stretch _ _
      [[], [], [.command (.openDocument "file:///a" "plaintext" "y")]], ?_⟩,
    ⟨_, _, _, among_stretch _ _ [], ?_⟩⟩
  · decide +kernel
  · decide +kernel
  · decide +kernel

theorem edit_current_undisturbed : ∃ beats before a after v s,
    Stretch busyDesk (insertions [("file:///a", "2")]) beats v s ∧ beats = before ++ .own a :: after ∧
      a.next ≠ a.world ∧ ∃ changes, ofParams (some (frontsParams [("file:///a", "2")])) = .ok changes ∧
      Committed changes before a := by
  have stretch := among_stretch (insertions [("file:///a", "2")]) busyDesk []
  have glances : (asks (among busyDesk [] (insertions [("file:///a", "2")])).1).map
      (Ask.glance "file:///a") =
        [(none, some "x", some "x"), (some "2x", some "x", some "2x")] := by decide +kernel
  obtain ⟨first, rest, questions, -, others⟩ := List.map_eq_cons_iff.mp glances
  obtain ⟨a, none, rfl, glance, -⟩ := List.map_eq_cons_iff.mp others
  have parts : asks (among busyDesk [] (insertions [("file:///a", "2")])).1 = [first] ++ a :: none :=
    questions
  obtain ⟨before, after, split, -, -⟩ := asks_split parts
  have active : a.next ≠ a.world := by
    intro idle
    simp only [Ask.glance, idle, Prod.mk.injEq] at glance
    rw [glance.2.1] at glance
    exact absurd glance.2.2 (by decide)
  refine ⟨_, before, a, after, _, _, stretch, split, active, ?_⟩
  exact (edit_current stretch split).resolve_left active

end ServerProbe.Mock
