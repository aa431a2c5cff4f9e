import Mathlib.Logic.Function.Basic
import ServerProbe.Document.Staging
/-!
What the changes of an edit make of one document: all of them in listed order, starting from what was
found of the document. Staging keeps such drafts, one for each document.
-/

namespace ServerProbe.WorkspaceEdit

/-- What an edit has found of a document: what is open in the client, or else the text of a file. -/
inductive Ground where
  | opened (d : Document)
  | file (path text : String)
deriving DecidableEq, Repr

namespace Ground

def text : Ground → String
  | opened d => d.text
  | file _ text => text

def target : Ground → Target
  | opened d => .opened d.version
  | file path _ => .file path

def document? : Ground → Option Document
  | opened d => some d
  | file _ _ => none

/-- The text that a change makes of the one before it. A version has to be that of the document as it
was found. -/
def revise (g : Ground) (text : String) (change : FileEdit) : Except EditFault String :=
  match g.target, change.version with
  | .opened base, some expected =>
    if expected == base then applyEdits text change.edits
    else .error (.document (.versionMismatch change.uri expected base))
  | .file _, some _ => .error (.notOpen change.uri)
  | _, none => applyEdits text change.edits

/-- The text that all changes of one document come to. -/
def draft (g : Ground) (uri : String) (changes : List FileEdit) : Except EditFault String :=
  (changes.filter fun c => c.uri == uri).foldlM g.revise g.text

variable {g : Ground} {uri : String} {changes : List FileEdit} {change : FileEdit}

theorem draft_snoc_other (apart : change.uri ≠ uri) :
    g.draft uri (changes ++ [change]) = g.draft uri changes := by
  simp [draft, apart]

theorem draft_snoc (g : Ground) (changes : List FileEdit) (change : FileEdit) :
    g.draft change.uri (changes ++ [change]) =
      (g.draft change.uri changes).bind fun text => g.revise text change := by
  have own : ([change].filter fun c => c.uri == change.uri) = [change] := by simp
  rw [draft, List.filter_append, List.foldlM_append, own, draft]
  refine bind_congr fun text => ?_
  rw [List.foldlM_cons]
  cases g.revise text change <;> rfl

/-- A document that no change has concerned is as it was found. -/
theorem draft_of_fresh (fresh : ∀ c ∈ changes, c.uri ≠ uri) : g.draft uri changes = .ok g.text := by
  have none : (changes.filter fun c => c.uri == uri) = [] := by
    simpa [List.filter_eq_nil_iff] using fresh
  simp [draft, none, pure, Except.pure]

/-- Nothing follows upon a change that could not be applied. -/
theorem draft_append_error {fault : EditFault} (failed : g.draft uri changes = .error fault)
    (more : List FileEdit) : g.draft uri (changes ++ more) = .error fault := by
  rw [draft] at failed
  rw [draft, List.filter_append, List.foldlM_append, failed]
  rfl

end Ground

theorem applyEdits_nil (text : String) : applyEdits text [] = .ok text := by
  have kept : TextEdit.applyAll text [] = .ok text := by
    simp [TextEdit.applyAll, TextEdit.sorted, TextEdit.splice, Except.map]
  rw [applyEdits, kept]
  rfl

/-- The text that changes come to, made one after the other. -/
def applyChanges (text : String) (changes : List FileEdit) : Except EditFault String :=
  changes.foldlM (fun text c => applyEdits text c.edits) text

/-- A change that could be made names the version of the document that is open, or none. -/
theorem Ground.revise_eq_ok {g : Ground} {text new : String} {change : FileEdit}
    (done : g.revise text change = .ok new) : applyEdits text change.edits = .ok new ∧
      ∀ n, change.version = some n → ∃ base : Int32, g.target = .opened base ∧ n = base := by
  unfold revise at done
  split at done
  · rename_i base expected target version
    split at done
    · rename_i current
      refine ⟨done, fun n named => ⟨base, target, ?_⟩⟩
      rw [← Option.some.inj (version.symm.trans named)]
      exact eq_of_beq current
    · cases done
  · cases done
  · rename_i unversioned
    refine ⟨done, fun n named => ?_⟩
    rw [unversioned] at named
    cases named

theorem Ground.applyChanges_of_revised {g : Ground} {own : List FileEdit} {start text : String}
    (done : own.foldlM g.revise start = .ok text) : applyChanges start own = .ok text ∧
      ∀ c ∈ own, ∀ n, c.version = some n → ∃ base : Int32, g.target = .opened base ∧ n = base := by
  induction own generalizing start with
  | nil => exact ⟨done, fun c held => by cases held⟩
  | cons c own ih =>
      rw [List.foldlM_cons] at done
      cases revised : g.revise start c with
      | error fault =>
          rw [revised] at done
          cases done
      | ok next =>
          rw [revised] at done
          obtain ⟨applied, current⟩ := Ground.revise_eq_ok revised
          obtain ⟨rest, others⟩ := ih done
          refine ⟨?_, List.forall_mem_cons.mpr ⟨current, others⟩⟩
          rw [applyChanges, List.foldlM_cons, applied]
          exact rest

/-- A change staged on what was found of its document. -/
def Ground.stage (g : Ground) (index : Nat) (change : FileEdit) : Except EditFault Staged :=
  (g.revise g.text change).map fun text => ⟨change.uri, index, g.target, text⟩

theorem stageOpen_eq (index : Nat) (change : FileEdit) (d : Document) :
    stageOpen index change d = (Ground.opened d).stage index change := by
  unfold stageOpen Ground.stage Ground.revise
  cases change.version with
  | none => rfl
  | some expected =>
      simp only [Ground.target]
      split <;> rfl

theorem stageFile_eq (index : Nat) {change : FileEdit} (unversioned : change.version = none)
    (path text : String) :
    stageFile index change path text = (Ground.file path text).stage index change := by
  simp only [stageFile, Ground.stage, Ground.revise, Ground.target, unversioned, Ground.text]

theorem restage_eq {g : Ground} {prior : Staged} (target : prior.target = g.target)
    (change : FileEdit) :
    restage prior change = (g.revise prior.text change).map fun text => { prior with text } := by
  unfold restage Ground.revise
  rw [target]
  cases g.target with
  | opened base =>
      cases change.version with
      | none => rfl
      | some expected =>
          simp only
          split <;> rfl
  | file path => cases change.version <;> rfl

/-! ### What staging keeps -/

/-- Every document that was found can be given all the changes listed for it. -/
def Fit (changes : List FileEdit) (grounds : String → Option Ground) : Prop :=
  ∀ uri g, grounds uri = some g → ∃ text, g.draft uri changes = .ok text

theorem Fit.before {past : List FileEdit} {change : FileEdit} {grounds : String → Option Ground}
    (fit : Fit (past ++ [change]) grounds) : Fit past grounds := by
  intro uri g found
  obtain ⟨text, drafted⟩ := fit uri g found
  cases before : g.draft uri past with
  | ok text => exact ⟨text, rfl⟩
  | error fault =>
      rw [Ground.draft_append_error before] at drafted
      cases drafted

theorem Fit.update {changes : List FileEdit} {grounds : String → Option Ground} {uri : String}
    {g : Ground} (fit : Fit changes grounds) (fits : ∃ text, g.draft uri changes = .ok text) :
    Fit changes (Function.update grounds uri (some g)) := by
  intro other g' found
  by_cases same : other = uri
  · subst same
    rw [Function.update_self] at found
    rwa [← Option.some.inj found]
  · rw [Function.update_of_ne same] at found
    exact fit other g' found

theorem Fit.of_update {changes : List FileEdit} {grounds : String → Option Ground} {uri : String}
    {g : Ground} (fit : Fit changes (Function.update grounds uri (some g)))
    (unknown : grounds uri = none) : Fit changes grounds := by
  intro other g' found
  refine fit other g' ?_
  rwa [Function.update_of_ne]
  rintro rfl
  rw [unknown] at found
  cases found

/-- What has been staged for the changes so far, on the grounds found under each URI: one draft for
each document, in the order in which they were first named. -/
structure Drafted (changes : List FileEdit) (grounds : String → Option Ground)
    (staged : List Staged) : Prop where
  draft : ∀ s ∈ staged, ∃ g, grounds s.uri = some g ∧ s.target = g.target ∧
    g.draft s.uri changes = .ok s.text
  first : ∀ s ∈ staged, s.change = changes.findIdx fun c => c.uri == s.uri
  named : ∀ uri, (grounds uri).isSome ↔ ∃ c ∈ changes, c.uri = uri
  complete : ∀ uri, (grounds uri).isSome → ∃ s ∈ staged, s.uri = uri
  ordered : staged.Pairwise fun s t => s.change < t.change

namespace Drafted

variable {changes : List FileEdit} {grounds : String → Option Ground} {staged : List Staged}
  {change : FileEdit} {g : Ground}

theorem nil : Drafted [] (fun _ => none) [] where
  draft _ held := by cases held
  first _ held := by cases held
  named uri := by simp
  complete uri found := by cases found
  ordered := .nil

theorem unknown (h : Drafted changes grounds staged) (unknown : grounds change.uri = none) :
    stagedFor? change.uri staged = none := by
  refine List.find?_eq_none.mpr fun s held same => ?_
  obtain ⟨g, known, -⟩ := h.draft s held
  rw [eq_of_beq same, unknown] at known
  cases known

theorem fresh (h : Drafted changes grounds staged) (unknown : grounds change.uri = none) :
    ∀ c ∈ changes, c.uri ≠ change.uri := by
  intro c there same
  have known := (h.named change.uri).mpr ⟨c, there, same⟩
  rw [unknown] at known
  cases known

theorem known (h : Drafted changes grounds staged) (known : grounds change.uri = some g) :
    ∃ s ∈ staged, stagedFor? change.uri staged = some s ∧ s.uri = change.uri ∧ s.target = g.target ∧
      g.draft change.uri changes = .ok s.text := by
  obtain ⟨t, there, same⟩ := h.complete change.uri (Option.isSome_of_mem known)
  have some : (stagedFor? change.uri staged).isSome :=
    List.find?_isSome.mpr ⟨t, there, beq_iff_eq.mpr same⟩
  obtain ⟨s, found⟩ := Option.isSome_iff_exists.mp some
  have held : s ∈ staged := List.mem_of_find?_eq_some found
  have named : s.uri = change.uri := by simpa using List.find?_some found
  obtain ⟨g', known', target, draft⟩ := h.draft s held
  rw [named, known] at known'
  obtain rfl := Option.some.inj known'
  rw [named] at draft
  exact ⟨s, held, found, named, target, draft⟩

theorem listed (h : Drafted changes grounds staged) {s : Staged} (held : s ∈ staged) :
    ∃ c ∈ changes, c.uri = s.uri := by
  obtain ⟨g, known, -⟩ := h.draft s held
  exact (h.named s.uri).mp (Option.isSome_of_mem known)

/-- No two drafts are of one document. -/
theorem apart (h : Drafted changes grounds staged) : staged.Pairwise fun s t => s.uri ≠ t.uri := by
  refine h.ordered.imp_of_mem fun {s t} held also before same => ?_
  rw [h.first s held, h.first t also, same] at before
  exact Nat.lt_irrefl _ before

/-- Every document that is named has its draft. -/
theorem of_listed (h : Drafted changes grounds staged) {c : FileEdit} (listed : c ∈ changes) :
    ∃ s ∈ staged, s.uri = c.uri := h.complete c.uri ((h.named c.uri).mpr ⟨c, listed, rfl⟩)

/-- A document keeps its place when it is named again. -/
theorem findIdx_snoc (h : Drafted changes grounds staged) {s : Staged} (held : s ∈ staged)
    (change : FileEdit) :
    ((changes ++ [change]).findIdx fun c => c.uri == s.uri) =
      changes.findIdx fun c => c.uri == s.uri := by
  obtain ⟨c, there, same⟩ := h.listed held
  have early : (changes.findIdx fun c => c.uri == s.uri) < changes.length :=
    List.findIdx_lt_length_of_exists ⟨c, there, beq_iff_eq.mpr same⟩
  rw [List.findIdx_append, if_pos early]

theorem revised (h : Drafted changes grounds staged) {s : Staged} {text : String} (held : s ∈ staged)
    (named : s.uri = change.uri) (known : grounds change.uri = some g)
    (target : s.target = g.target) (draft : g.draft change.uri changes = .ok s.text)
    (revised : g.revise s.text change = .ok text) :
    Drafted (changes ++ [change]) grounds (replaceStaged { s with text } staged) := by
  have each : ∀ t ∈ replaceStaged { s with text } staged,
      t = { s with text } ∨ t ∈ staged ∧ t.uri ≠ change.uri := by
    intro t replaced
    obtain ⟨t', there, rfl⟩ := List.mem_map.mp replaced
    split
    · exact .inl rfl
    · rename_i apart
      exact .inr ⟨there, fun same => apart (beq_iff_eq.mpr (same.trans named.symm))⟩
  refine ⟨fun t replaced => ?_, fun t replaced => ?_, fun uri => ?_, fun uri found => ?_, ?_⟩
  · rcases each t replaced with rfl | ⟨there, apart⟩
    · refine ⟨g, ?_, target, ?_⟩
      · exact (congrArg grounds named).trans known
      · change g.draft s.uri (changes ++ [change]) = .ok text
        rw [named, Ground.draft_snoc, draft]
        exact revised
    · obtain ⟨g', known', target', draft'⟩ := h.draft t there
      exact ⟨g', known', target', (Ground.draft_snoc_other (Ne.symm apart)).trans draft'⟩
  · rcases each t replaced with rfl | ⟨there, -⟩
    · rw [h.findIdx_snoc held]
      exact h.first s held
    · rw [h.findIdx_snoc there]
      exact h.first t there
  · rw [h.named uri]
    constructor
    · rintro ⟨c, there, same⟩
      exact ⟨c, List.mem_append_left _ there, same⟩
    · rintro ⟨c, there, same⟩
      rcases List.mem_append.mp there with before | here
      · exact ⟨c, before, same⟩
      · rw [List.mem_singleton.mp here] at same
        rw [← same]
        exact (h.named change.uri).mp (Option.isSome_of_mem known)
  · obtain ⟨t, there, same⟩ := h.complete uri found
    refine ⟨_, List.mem_map_of_mem there, ?_⟩
    split
    · rename_i replaced
      exact (eq_of_beq replaced).symm.trans same
    · exact same
  · refine List.pairwise_map.mpr (h.ordered.imp_of_mem fun {t u} there also before => ?_)
    have place : ∀ t ∈ staged,
        (if t.uri == s.uri then { s with text } else t).change = t.change := by
      intro t there
      split
      · rename_i same
        change s.change = t.change
        rw [h.first s held, h.first t there, eq_of_beq same]
      · rfl
    rw [place t there, place u also]
    exact before

theorem added (h : Drafted changes grounds staged) {text : String}
    (unknown : grounds change.uri = none) (revised : g.revise g.text change = .ok text) :
    Drafted (changes ++ [change]) (Function.update grounds change.uri (some g))
      (staged ++ [⟨change.uri, changes.length, g.target, text⟩]) := by
  have fresh := h.fresh unknown
  have apart : ∀ s ∈ staged, s.uri ≠ change.uri := by
    intro s there same
    obtain ⟨g', known, -⟩ := h.draft s there
    rw [same, unknown] at known
    cases known
  refine ⟨fun s staged_now => ?_, fun s staged_now => ?_, fun uri => ?_, fun uri found => ?_, ?_⟩
  · rcases List.mem_append.mp staged_now with there | new
    · obtain ⟨g', known, target, draft⟩ := h.draft s there
      refine ⟨g', ?_, target, (Ground.draft_snoc_other (apart s there).symm).trans draft⟩
      rwa [Function.update_of_ne (apart s there)]
    · obtain rfl := List.mem_singleton.mp new
      refine ⟨g, Function.update_self .., rfl, ?_⟩
      change g.draft change.uri (changes ++ [change]) = .ok text
      rw [Ground.draft_snoc, Ground.draft_of_fresh fresh]
      exact revised
  · rcases List.mem_append.mp staged_now with there | new
    · rw [h.findIdx_snoc there]
      exact h.first s there
    · obtain rfl := List.mem_singleton.mp new
      have none : (changes.findIdx fun c => c.uri == change.uri) = changes.length := by
        refine List.findIdx_eq_length.mpr fun c there => ?_
        simpa using fresh c there
      simp [List.findIdx_append, none]
  · by_cases same : uri = change.uri
    · subst same
      simp
    · rw [Function.update_of_ne same, h.named uri]
      simp [Ne.symm same]
  · by_cases same : uri = change.uri
    · exact ⟨_, List.mem_append_right _ (List.mem_singleton_self _), same.symm⟩
    · rw [Function.update_of_ne same] at found
      obtain ⟨s, there, named⟩ := h.complete uri found
      exact ⟨s, List.mem_append_left _ there, named⟩
  · refine List.pairwise_append.mpr ⟨h.ordered, List.pairwise_singleton _ _, ?_⟩
    intro s there t new
    obtain rfl := List.mem_singleton.mp new
    obtain ⟨c, listed, same⟩ := h.listed there
    rw [h.first s there]
    exact List.findIdx_lt_length_of_exists ⟨c, listed, beq_iff_eq.mpr same⟩

theorem fit (h : Drafted changes grounds staged) : Fit changes grounds := by
  intro uri g found
  obtain ⟨s, held, rfl⟩ := h.complete uri (Option.isSome_of_mem found)
  obtain ⟨g', found', -, drafted⟩ := h.draft s held
  rw [found] at found'
  rw [Option.some.inj found']
  exact ⟨s.text, drafted⟩

/-- A change that is the first of its document is made to it as it was found. -/
theorem draft_first (h : Drafted changes grounds staged) (unknown : grounds change.uri = none) :
    g.draft change.uri (changes ++ [change]) = g.revise g.text change := by
  rw [Ground.draft_snoc, Ground.draft_of_fresh (h.fresh unknown)]
  rfl

end Drafted
end ServerProbe.WorkspaceEdit
