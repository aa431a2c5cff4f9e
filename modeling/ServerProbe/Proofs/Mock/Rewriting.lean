import ServerProbe.Proofs.File.Tree
import ServerProbe.Proofs.Mock.Applying
/-!
What an edit that was applied leaves of the files. Each document it has drafted goes to its file, in
the order in which the documents were first named; so of several documents of one file, the one that
was named last stands.
-/

namespace ServerProbe

namespace FileTree

/-- The location of the file that a URI stands for. -/
def home? (t : FileTree) (uri : String) : Option Location :=
  (FileUri.toPath? uri).bind fun path => (t.locate path).toOption

end FileTree

namespace Mock

open WorkspaceEdit (Drafted Ground Staged applyChanges commitAll ofParams)

variable {ρ : Type}

/-- The path and the text of a draft that goes to a file. -/
def filed? (s : Staged) : Option (String × String) :=
  match s.target with
  | .file path => some (path, s.text)
  | .opened _ => none

/-- Once all drafts have been committed, their texts have been written. -/
theorem commitAll_written {w v : World ρ} {staged : List Staged} {own : List (Ask ρ)}
    (asked : Asked (commitAll staged) own (.done (.ok ()))) (flow : Flow w (own.map .own) v)
    (files : ∀ s ∈ staged, ∃ path, s.target = .file path) :
    w.files.Written (staged.filterMap filed?) v.files := by
  induction staged generalizing w own with
  | nil =>
      obtain ⟨rfl, -⟩ := asked.of_done
      cases flow
      exact .nil
  | cons s rest ih =>
      obtain ⟨path, target⟩ := files s List.mem_cons_self
      rw [commitAll_cons, commit_file target] at asked
      have filed : filed? s = some (path, s.text) := by simp only [filed?, target]
      rw [List.filterMap_cons, filed]
      cases asked with
      | @cons w' q next answer asks _ answered later =>
          cases flow with
          | cons onwards =>
              cases written : w'.files.write path (Utf8.encode s.text) with
              | error fault =>
                  simp only [World.answer, written, Option.some.injEq] at answered
                  subst answered
                  cases later
              | ok tree =>
                  simp only [World.answer, written, Option.some.injEq] at answered
                  subst answered
                  have next : (Beat.own (Ask.mk w' (.writeFile path s.text))).next =
                      { w' with files := tree } := by
                    simp only [Beat.next, Ask.next, World.answer, written]
                  rw [next] at onwards
                  refine .cons written (ih later onwards fun t held => ?_)
                  exact files t (List.mem_cons_of_mem s held)

/-- A draft that goes to the file at a location: what all its changes, in listed order, make of the text
that is there. -/
structure OnFile (t : FileTree) (changes : List FileEdit) (s : Staged) (l : Location) : Prop where
  filed : ∃ path, filed? s = some (path, s.text) ∧ t.locate path = .ok l
  home : t.home? s.uri = some l
  there : ∃ bytes, t.find? l = some (some bytes)
  rewritten : ∃ old, t.textAt? l = some old ∧
    applyChanges old (changes.filter fun c => c.uri == s.uri) = .ok s.text

/-- What has been staged without anybody's interference, of documents that are not open. -/
theorem staged_onFile {w : World ρ} {changes : List FileEdit} {survey : List (Ask ρ)}
    {grounds : String → Option Ground} {staged : List Staged}
    (surveyed : Surveyed changes survey grounds) (drafted : Drafted changes grounds staged)
    (here : ∀ a ∈ survey, a.world = w)
    (shut : ∀ c ∈ changes, w.connection.documents.get? c.uri = none) {s : Staged} (held : s ∈ staged) :
    ∃ l, OnFile w.files changes s l := by
  obtain ⟨g, known, target, draft⟩ := drafted.draft s held
  obtain ⟨c, listed, same⟩ := drafted.listed held
  have closed : w.connection.documents.get? s.uri = none := same ▸ shut c listed
  obtain ⟨early, asked, late, change, rfl, named, found⟩ := surveyed.found known
  have at_hand : ∀ a ∈ asked, a.world = w := fun a held => here a (by simp [held])
  cases found with
  | @opened w' d live held =>
      have now : w' = w := at_hand ⟨w', .command (.document change.uri)⟩ List.mem_cons_self
      rw [now, named, closed] at held
      cases held
  | @file _ w' path text live shut unversioned path_named read =>
      have now : w' = w := at_hand ⟨w', .readFile path⟩ (by simp)
      rw [now] at read
      obtain ⟨l, bytes, located, there, decoded⟩ := FileTree.readText_eq_ok read
      refine ⟨l, ⟨path, ?_, located⟩, ?_, ⟨bytes, there⟩, text, ?_, ?_⟩
      · simp only [filed?, target, Ground.target]
      · simp only [FileTree.home?, ← named, path_named, Option.bind_some, located]
        rfl
      · simp only [FileTree.textAt?, there, Option.join_some, Option.bind_some, decoded]
      · exact (Ground.applyChanges_of_revised draft).1

/-- Files rewritten by changes, whose documents were not open. -/
structure Rewritten (changes : List FileEdit) (t u : FileTree) : Prop where
  /-- All changes are changes of files. -/
  homes : ∀ c ∈ changes, ∃ l, t.home? c.uri = some l
  /-- What no change is about stays as it is. -/
  elsewhere : ∀ l, (∀ c ∈ changes, t.home? c.uri ≠ some l) → u.find? l = t.find? l
  /-- A file is rewritten by the changes under one URI that stands for it: the one that was first named
  after all others. -/
  last : ∀ l uri, t.home? uri = some l → (∃ c ∈ changes, c.uri = uri) →
    (∀ c ∈ changes, t.home? c.uri = some l → (changes.findIdx fun d => d.uri == c.uri) ≤
      changes.findIdx fun d => d.uri == uri) →
    ∃ old new, t.textAt? l = some old ∧
      applyChanges old (changes.filter fun c => c.uri == uri) = .ok new ∧
      u.find? l = some (some (Utf8.encode new))
  /-- A file with one URI among the changes is rewritten by all of its changes. -/
  alike : ∀ l, (∃ c ∈ changes, t.home? c.uri = some l) →
    (∀ c ∈ changes, ∀ d ∈ changes, t.home? c.uri = some l → t.home? d.uri = some l → c.uri = d.uri) →
    ∃ old new, t.textAt? l = some old ∧
      applyChanges old (changes.filter fun c => t.home? c.uri == some l) = .ok new ∧
      u.find? l = some (some (Utf8.encode new))

section Written

variable {changes : List FileEdit} {grounds : String → Option Ground} {staged : List Staged}
  {t u : FileTree}

theorem OnFile.leads {s : Staged} {l : Location} {p : String × String} (h : OnFile t changes s l)
    (filed : filed? s = some p) : p.2 = s.text ∧ t.locate p.1 = .ok l := by
  obtain ⟨path, same, located⟩ := h.filed
  rw [filed] at same
  obtain rfl := Option.some.inj same
  exact ⟨rfl, located⟩

theorem OnFile.holds {s : Staged} {l : Location} {p : String × String} (h : OnFile t changes s l)
    (filed : filed? s = some p) : t.Holds p.1 := by
  obtain ⟨bytes, there⟩ := h.there
  exact ⟨l, bytes, (h.leads filed).2, there⟩

theorem rewritten_elsewhere (drafted : Drafted changes grounds staged)
    (files : ∀ s ∈ staged, ∃ l, OnFile t changes s l)
    (written : t.Written (staged.filterMap filed?) u) {l : Location}
    (apart : ∀ c ∈ changes, t.home? c.uri ≠ some l) : u.find? l = t.find? l := by
  refine written.elsewhere (.refl t) (fun p held => ?_) fun p held leads => ?_
  · obtain ⟨s, there, filed⟩ := List.mem_filterMap.mp held
    obtain ⟨m, file⟩ := files s there
    exact file.holds filed
  · obtain ⟨s, there, filed⟩ := List.mem_filterMap.mp held
    obtain ⟨m, file⟩ := files s there
    obtain rfl := Except.ok.inj ((file.leads filed).2.symm.trans leads)
    obtain ⟨c, listed, same⟩ := drafted.listed there
    exact apart c listed (same ▸ file.home)

/-- The draft that was begun last of those that go to one file is what is in it. -/
theorem rewritten_last (drafted : Drafted changes grounds staged)
    (files : ∀ s ∈ staged, ∃ l, OnFile t changes s l)
    (written : t.Written (staged.filterMap filed?) u) {s : Staged} {l : Location} (held : s ∈ staged)
    (file : OnFile t changes s l)
    (latest : ∀ c ∈ changes, t.home? c.uri = some l → (changes.findIdx fun d => d.uri == c.uri) ≤
      changes.findIdx fun d => d.uri == s.uri) :
    u.find? l = some (some (Utf8.encode s.text)) := by
  obtain ⟨early, late, rfl⟩ := List.append_of_mem held
  obtain ⟨path, filed, located⟩ := file.filed
  rw [List.filterMap_append, List.filterMap_cons, filed] at written
  refine written.last (fun p held => ?_) located fun p after leads => ?_
  · have all : p ∈ (early ++ s :: late).filterMap filed? := by
      rw [List.filterMap_append, List.filterMap_cons, filed]
      exact held
    obtain ⟨other, there, filed⟩ := List.mem_filterMap.mp all
    obtain ⟨m, file⟩ := files other there
    exact file.holds filed
  · obtain ⟨other, later, filed'⟩ := List.mem_filterMap.mp after
    have there : other ∈ early ++ s :: late := List.mem_append_right _ (List.mem_cons_of_mem s later)
    obtain ⟨m, file'⟩ := files other there
    obtain rfl := Except.ok.inj ((file'.leads filed').2.symm.trans leads)
    obtain ⟨c, listed, same⟩ := drafted.listed there
    -- It would have been named before, and so have been written before.
    have before := latest c listed (same ▸ file'.home)
    rw [same, ← drafted.first other there, ← drafted.first s held] at before
    have ordered := (List.pairwise_append.mp drafted.ordered).2.1
    exact absurd (List.rel_of_pairwise_cons ordered later) (Nat.not_lt_of_le before)

theorem rewritten_of_written (drafted : Drafted changes grounds staged)
    (files : ∀ s ∈ staged, ∃ l, OnFile t changes s l)
    (written : t.Written (staged.filterMap filed?) u) : Rewritten changes t u := by
  have homes : ∀ c ∈ changes, ∃ s ∈ staged, s.uri = c.uri ∧ ∃ l, OnFile t changes s l := by
    intro c listed
    obtain ⟨s, held, same⟩ := drafted.of_listed listed
    exact ⟨s, held, same, files s held⟩
  have last : ∀ l uri, t.home? uri = some l → (∃ c ∈ changes, c.uri = uri) →
      (∀ c ∈ changes, t.home? c.uri = some l → (changes.findIdx fun d => d.uri == c.uri) ≤
        changes.findIdx fun d => d.uri == uri) →
      ∃ old new, t.textAt? l = some old ∧
        applyChanges old (changes.filter fun c => c.uri == uri) = .ok new ∧
        u.find? l = some (some (Utf8.encode new)) := by
    rintro l uri home ⟨c, listed, rfl⟩ latest
    obtain ⟨s, held, same, m, file⟩ := homes c listed
    rw [← same] at home latest ⊢
    obtain rfl := Option.some.inj (file.home.symm.trans home)
    obtain ⟨old, text, applied⟩ := file.rewritten
    exact ⟨old, s.text, text, applied, rewritten_last drafted files written held file latest⟩
  refine ⟨fun c listed => ?_, fun l => rewritten_elsewhere drafted files written, last, ?_⟩
  · obtain ⟨s, -, same, l, file⟩ := homes c listed
    exact ⟨l, same ▸ file.home⟩
  · rintro l ⟨c, listed, home⟩ one
    obtain ⟨old, new, text, applied, found⟩ := last l c.uri home ⟨c, listed, rfl⟩
      fun d also there => (one d also c listed there home) ▸ Nat.le_refl _
    refine ⟨old, new, text, ?_, found⟩
    rw [← applied]
    refine congrArg _ (List.filter_congr fun d also => ?_)
    rw [Bool.eq_iff_iff, beq_iff_eq, beq_iff_eq]
    constructor
    · exact fun there => one d also c listed there home
    · rintro same
      rw [same, home]

end Written

/-! ### Edits that were applied -/

/-- The end of a handler that replies that everything was applied. -/
def Applies (how : HandlerEnd) : Prop :=
  ∃ reply, how = .returned (.ok reply) ∧ reply.get? "applied" = some (.bool true)

theorem not_applies_of_failed (fault : EditFault) (change : Option Nat) :
    ¬ Applies (replied ⟨some (fault, change)⟩) := by
  rintro ⟨reply, same, applied⟩
  obtain rfl := Except.ok.inj (HandlerEnd.returned.inj same)
  rw [(failed_reply fault change).1] at applied
  cases applied

/-- An edit that was applied has staged all its changes, and then committed every draft. -/
theorem applied_asked {params : Option Json} {asks : List (Ask ρ)} {how : HandlerEnd}
    (asked : Asked (Handler.run params .workspaceEdits) asks (.done how)) (applies : Applies how) :
    ∃ changes survey commits grounds staged, ofParams params = .ok changes ∧ asks = survey ++ commits ∧
      (∀ a ∈ survey, Looks a.question) ∧ Surveyed changes survey grounds ∧
      Drafted changes grounds staged ∧ Asked (commitAll staged) commits (.done (.ok ())) := by
  cases read : ofParams params with
  | error fault =>
      rw [run_unread read] at asked
      rw [Dialogue.done.inj asked.of_done.2] at applies
      exact absurd applies (not_applies_of_failed fault none)
  | ok changes =>
      cases run_underway read asked with
      | staging _ ends =>
        obtain ⟨k, fault, -, rfl⟩ := ends how rfl
        exact absurd applies (not_applies_of_failed fault (some k))
      | @committing survey commits grounds staged parts looks surveyed drafted committing =>
        obtain ⟨result, early, late, rfl, committed, concluded⟩ := committing.of_bind_done
        rcases result with ⟨fault, change⟩ | _
        · rw [Dialogue.done.inj concluded.of_done.2] at applies
          exact absurd applies (not_applies_of_failed fault (some change))
        · obtain ⟨rfl, -⟩ := concluded.of_done
          rw [List.append_nil] at parts
          exact ⟨changes, survey, early, grounds, staged, rfl, parts, looks, surveyed, drafted, committed⟩

/-- Questions that change nothing are all put to one world. -/
theorem Flow.idle {w v : World ρ} {own : List (Ask ρ)} (flow : Flow w (own.map .own) v)
    (idle : ∀ a ∈ own, a.next = a.world) : v = w ∧ ∀ a ∈ own, a.world = w := by
  induction own generalizing w with
  | nil =>
      cases flow
      exact ⟨rfl, fun a held => by cases held⟩
  | cons a rest ih =>
      cases flow with
      | cons later =>
          have here : (Beat.own a).next = a.world := idle a List.mem_cons_self
          rw [here] at later
          obtain ⟨same, others⟩ := ih later fun b held => idle b (List.mem_cons_of_mem a held)
          refine ⟨same, fun b held => ?_⟩
          rcases List.mem_cons.mp held with rfl | held
          · rfl
          · exact others b held

theorem applied_edit_rewrites {w v : World ρ} {params : Option Json} {how : HandlerEnd}
    (driven : w.drive (Handler.run params .workspaceEdits) = (v, .done how)) (applies : Applies how) :
    ∃ changes, ofParams params = .ok changes ∧
      ((∀ c ∈ changes, w.connection.documents.get? c.uri = none) →
        Rewritten changes w.files v.files) := by
  obtain ⟨own, stretch⟩ := drive_stretch driven
  have asked := stretch.asked
  rw [asks_own] at asked
  cases read : ofParams params with
  | error fault =>
      rw [run_unread read] at asked
      rw [Dialogue.done.inj asked.of_done.2] at applies
      exact absurd applies (not_applies_of_failed fault none)
  | ok changes =>
      refine ⟨changes, rfl, fun shut => ?_⟩
      cases run_underway read asked with
      | staging _ ends =>
        obtain ⟨k, fault, -, rfl⟩ := ends how rfl
        exact absurd applies (not_applies_of_failed fault (some k))
      | @committing survey commits grounds staged parts looks surveyed drafted committing =>
        subst parts
        obtain ⟨result, early, late, rfl, committed, concluded⟩ := committing.of_bind_done
        rcases result with ⟨fault, change⟩ | _
        · rw [Dialogue.done.inj concluded.of_done.2] at applies
          exact absurd applies (not_applies_of_failed fault (some change))
        · obtain ⟨rfl, -⟩ := concluded.of_done
          have flow := stretch.flow
          rw [List.append_nil, List.map_append] at flow
          obtain ⟨u, surveying, writing⟩ := flow.parts
          obtain ⟨rfl, here⟩ := surveying.idle fun a held => (looks a held).idle a.world
          have files := fun s held => staged_onFile surveyed drafted here shut (s := s) held
          refine rewritten_of_written drafted files (commitAll_written committed writing ?_)
          intro s held
          obtain ⟨l, file⟩ := files s held
          obtain ⟨path, filed, -⟩ := file.filed
          cases target : s.target with
          | file path => exact ⟨path, rfl⟩
          | opened base =>
              rw [filed?, target] at filed
              cases filed

/-! ### One file under two names -/

/-- A world with the text "x" in a file. -/
def shelf : World Unit := .fresh .standard ⟨[], [([], none), (["a"], some (Utf8.encode "x"))]⟩

def reportsApplied : Routine Handler HandlerEnd → Bool
  | .done (.returned (.ok reply)) => (reply.get? "applied" matches some (.bool true))
  | _ => false

theorem applies_of_reported {s : Routine Handler HandlerEnd} (reported : reportsApplied s = true) :
    ∃ how, s = .done how ∧ Applies how := by
  unfold reportsApplied at reported
  split at reported
  · rename_i reply
    split at reported
    · exact ⟨_, rfl, reply, rfl, ‹_›⟩
    · cases reported
  · cases reported

/-- Two changes of one file that spell its URI in two ways: the edit is applied, and the first of them
is lost. -/
theorem respelled_change_lost :
    let texts := [("file:///a", "1"), ("file:///./a", "2")]
    ∃ v how, ofParams (some (frontsParams texts)) = .ok (fronts texts) ∧
      shelf.drive (insertions texts) = (v, .done how) ∧ Applies how ∧
      (∀ c ∈ fronts texts, shelf.connection.documents.get? c.uri = none ∧
        shelf.files.home? c.uri = some ["a"]) ∧
      shelf.files.textAt? ["a"] = some "x" ∧
      (applyChanges "x" (fronts texts)).toOption = some "21x" ∧
      v.files.textAt? ["a"] = some "2x" := by
  have reported : reportsApplied
      (shelf.drive (insertions [("file:///a", "1"), ("file:///./a", "2")])).2 = true := by
    decide +kernel
  obtain ⟨how, ended, applies⟩ := applies_of_reported reported
  refine ⟨_, how, ofParams_fronts _, Prod.ext rfl ended, applies, ?_, ?_, ?_, ?_⟩
  · decide +kernel
  · decide +kernel
  · decide +kernel
  · decide +kernel

theorem applied_edit_rewrites_twice :
    let texts := [("file:///a", "1"), ("file:///a", "2")]
    ∃ v how, shelf.drive (insertions texts) = (v, .done how) ∧ Applies how ∧
      Rewritten (fronts texts) shelf.files v.files := by
  have reported : reportsApplied
      (shelf.drive (insertions [("file:///a", "1"), ("file:///a", "2")])).2 = true := by
    decide +kernel
  obtain ⟨how, ended, applies⟩ := applies_of_reported reported
  have driven : shelf.drive (insertions [("file:///a", "1"), ("file:///a", "2")]) = (_, .done how) :=
    Prod.ext rfl ended
  obtain ⟨changes, read, rewritten⟩ := applied_edit_rewrites driven applies
  obtain rfl := Except.ok.inj ((ofParams_fronts _).symm.trans read)
  exact ⟨_, how, driven, applies, rewritten fun c _ => rfl⟩

end Mock
end ServerProbe
