import ServerProbe.Proofs.Document.Draft
import ServerProbe.Proofs.Mock.Stretch
/-!
How an edit is staged. For each document that its changes name the edit asks once what is there, and
from then on works on what it has found: it has staged the drafts of all documents, or ends at the
first change that could not be staged.
-/

namespace ServerProbe.Mock

open WorkspaceEdit (Drafted Fit Ground Staged stage stageAll stagedFor?)

variable {ρ : Type}

/-! ### Looking up -/

/-- A question that only looks something up. -/
inductive Looks : Question Handler → Prop
  | document (uri : String) : Looks (.command (.document uri))
  | file (path : String) : Looks (.readFile path)

theorem turn_nil (w : World ρ) : w.turn (w.connection, []) = w := by
  simp only [World.turn, List.foldl_nil, Bool.not_and_self, Bool.false_eq_true, if_false]

theorem answer_document (w : World ρ) (uri : String) :
    w.answer (.command (.document uri)) =
      (w, some (if w.stopped then none else some (w.connection.documents.get? uri))) := by
  cases stopped : w.stopped with
  | true => simp only [World.answer, stopped, if_true]
  | false =>
      simp only [World.answer, stopped, Connection.handle, Bool.false_eq_true, if_false]
      rw [turn_nil]

/-- As long as the connection is there, it says what is open under a URI. -/
theorem answer_live {w : World ρ} {uri : String} {d : Option Document} (live : w.stopped = false)
    (held : w.connection.documents.get? uri = d) :
    (w.answer (.command (.document uri))).2 = some (some d) := by
  simp only [answer_document, live, held, Bool.false_eq_true, if_false]

theorem Looks.idle {q : Question Handler} (h : Looks q) (w : World ρ) : (w.answer q).1 = w := by
  cases h with
  | document uri => rw [answer_document]
  | file path => rfl

theorem Looks.prompt {q : Question Handler} (h : Looks q) : Prompt ρ q := by
  intro w
  cases h with
  | document uri => rw [answer_document]; rfl
  | file path => rfl

/-- What a change finds of its document, by the questions it asks. -/
inductive Found (change : FileEdit) : List (Ask ρ) → Except EditFault Ground → Prop
  | stopped {w : World ρ} (gone : w.stopped = true) :
      Found change [⟨w, .command (.document change.uri)⟩] (.error (.client Client.stopped))
  | opened {w : World ρ} {d : Document} (live : w.stopped = false)
      (held : w.connection.documents.get? change.uri = some d) :
      Found change [⟨w, .command (.document change.uri)⟩] (.ok (.opened d))
  | versioned {w : World ρ} {version : Int} (live : w.stopped = false)
      (closed : w.connection.documents.get? change.uri = none)
      (expects : change.version = some version) :
      Found change [⟨w, .command (.document change.uri)⟩] (.error (.notOpen change.uri))
  | elsewhere {w : World ρ} (live : w.stopped = false)
      (closed : w.connection.documents.get? change.uri = none)
      (unversioned : change.version = none) (unnamed : FileUri.toPath? change.uri = none) :
      Found change [⟨w, .command (.document change.uri)⟩] (.error (.notAFile change.uri))
  | unreadable {w w' : World ρ} {path : String} {fault : FileFault} (live : w.stopped = false)
      (closed : w.connection.documents.get? change.uri = none)
      (unversioned : change.version = none) (named : FileUri.toPath? change.uri = some path)
      (failed : w'.files.readText path = .error fault) :
      Found change [⟨w, .command (.document change.uri)⟩, ⟨w', .readFile path⟩]
        (.error (.inaccessible path fault))
  | file {w w' : World ρ} {path text : String} (live : w.stopped = false)
      (closed : w.connection.documents.get? change.uri = none)
      (unversioned : change.version = none) (named : FileUri.toPath? change.uri = some path)
      (read : w'.files.readText path = .ok text) :
      Found change [⟨w, .command (.document change.uri)⟩, ⟨w', .readFile path⟩] (.ok (.file path text))

/-- How a change goes on once the edit knows whether its document is open. -/
def stageFound (index : Nat) (change : FileEdit) :
    Option (Option Document) → Routine Handler (Except EditFault Staged)
  | none => .done (.error (.client Client.stopped))
  | some (some d) => .done (WorkspaceEdit.stageOpen index change d)
  | some none =>
    match change.version, FileUri.toPath? change.uri with
    | some _, _ => .done (.error (.notOpen change.uri))
    | none, none => .done (.error (.notAFile change.uri))
    | none, some path => .ask (.readFile path) fun
      | .error fault => .done (.error (.inaccessible path fault))
      | .ok text => .done (WorkspaceEdit.stageFile index change path text)

theorem stage_eq (index : Nat) (change : FileEdit) :
    stage index change = .ask (.command (.document change.uri)) (stageFound index change) := by
  refine congrArg (Dialogue.ask (Question.command (.document change.uri))) (funext fun answer => ?_)
  rcases answer with _ | _ | d
  · rfl
  · simp only [stageFound]
    cases change.version with
    | some version => rfl
    | none =>
        cases FileUri.toPath? change.uri with
        | none => rfl
        | some path =>
            refine congrArg (Dialogue.ask (Question.readFile path)) (funext fun read => ?_)
            cases read <;> rfl
  · rfl

theorem stage_confined (index : Nat) (change : FileEdit) : Confined Looks (stage index change) := by
  rw [stage_eq]
  refine .ask (.document _) fun answer => ?_
  rcases answer with _ | _ | d
  · exact .done
  · simp only [stageFound]
    split
    · exact .done
    · exact .done
    · refine .ask (Looks.file _) fun read => ?_
      cases read <;> exact .done
  · exact .done

/-- What a change finds decides what it is staged as. -/
theorem Found.asked {change : FileEdit} {here : List (Ask ρ)} {found : Except EditFault Ground}
    (h : Found change here found) (index : Nat) :
    Asked (stage index change) here (.done (found.bind fun g => g.stage index change)) := by
  rw [stage_eq]
  cases h with
  | @stopped w gone =>
      have silent : (w.answer (.command (.document change.uri))).2 = some none := by
        simp only [answer_document, gone, if_true]
      exact .cons silent .nil
  | opened live held =>
      refine .cons (answer_live live held) ?_
      simp only [stageFound, WorkspaceEdit.stageOpen_eq]
      exact .nil
  | versioned live closed expects =>
      refine .cons (answer_live live closed) ?_
      simp only [stageFound, expects]
      exact .nil
  | elsewhere live closed unversioned unnamed =>
      refine .cons (answer_live live closed) ?_
      simp only [stageFound, unversioned, unnamed]
      exact .nil
  | unreadable live closed unversioned named failed =>
      refine .cons (answer_live live closed) ?_
      simp only [stageFound, unversioned, named]
      exact .cons (congrArg some failed) .nil
  | file live closed unversioned named read =>
      refine .cons (answer_live live closed) ?_
      simp only [stageFound, unversioned, named]
      refine .cons (congrArg some read) ?_
      simp only [WorkspaceEdit.stageFile_eq index unversioned]
      exact .nil

/-- What a change finds of a document that is not open. -/
theorem found_of_closed {index : Nat} {change : FileEdit} {w : World ρ} {asks : List (Ask ρ)}
    {result : Except EditFault Staged} (live : w.stopped = false)
    (closed : w.connection.documents.get? change.uri = none)
    (h : Asked (stageFound index change (some none)) asks (.done result)) :
    ∃ found, Found change (⟨w, .command (.document change.uri)⟩ :: asks) found ∧
      result = found.bind fun g => g.stage index change := by
  simp only [stageFound] at h
  split at h
  · rename_i expects
    obtain ⟨rfl, same⟩ := h.of_done
    exact ⟨_, .versioned live closed expects, Dialogue.done.inj same⟩
  · rename_i unversioned unnamed
    obtain ⟨rfl, same⟩ := h.of_done
    exact ⟨_, .elsewhere live closed unversioned unnamed, Dialogue.done.inj same⟩
  · rename_i path unversioned named
    cases h with
    | @cons w' _ _ read _ _ answered later =>
        cases read with
        | error fault =>
            obtain ⟨rfl, same⟩ := later.of_done
            refine ⟨_, .unreadable live closed unversioned named ?_, Dialogue.done.inj same⟩
            exact Option.some.inj answered
        | ok text =>
            simp only [WorkspaceEdit.stageFile_eq index unversioned] at later
            obtain ⟨rfl, same⟩ := later.of_done
            refine ⟨_, .file live closed unversioned named ?_, Dialogue.done.inj same⟩
            exact Option.some.inj answered

theorem found_of_asked {index : Nat} {change : FileEdit} {asks : List (Ask ρ)}
    {result : Except EditFault Staged} (h : Asked (stage index change) asks (.done result)) :
    ∃ found, Found change asks found ∧ result = found.bind fun g => g.stage index change := by
  rw [stage_eq] at h
  cases h with
  | @cons w _ _ answer _ _ answered later =>
      cases stopped : w.stopped with
      | true =>
          simp only [answer_document, stopped, if_true, Option.some.injEq] at answered
          subst answered
          obtain ⟨rfl, same⟩ := later.of_done
          exact ⟨_, .stopped stopped, Dialogue.done.inj same⟩
      | false =>
          cases held : w.connection.documents.get? change.uri with
          | some d =>
              obtain rfl := Option.some.inj ((answer_live stopped held).symm.trans answered)
              simp only [stageFound, WorkspaceEdit.stageOpen_eq] at later
              obtain ⟨rfl, same⟩ := later.of_done
              exact ⟨_, .opened stopped held, Dialogue.done.inj same⟩
          | none =>
              obtain rfl := Option.some.inj ((answer_live stopped held).symm.trans answered)
              exact found_of_closed stopped held later

/-! ### Surveys -/

/-- The questions by which an edit finds out about the documents of its changes, in listed order. A
document is only asked about once. -/
inductive Surveyed : List FileEdit → List (Ask ρ) → (String → Option Ground) → Prop
  | nil : Surveyed [] [] fun _ => none
  | again {past : List FileEdit} {change : FileEdit} {asks : List (Ask ρ)}
      {grounds : String → Option Ground} {g : Ground} (before : Surveyed past asks grounds)
      (known : grounds change.uri = some g) : Surveyed (past ++ [change]) asks grounds
  | first {past : List FileEdit} {change : FileEdit} {asks here : List (Ask ρ)}
      {grounds : String → Option Ground} {g : Ground} (before : Surveyed past asks grounds)
      (unknown : grounds change.uri = none) (found : Found change here (.ok g)) :
      Surveyed (past ++ [change]) (asks ++ here) (Function.update grounds change.uri (some g))

/-- The first change that could not be staged, by the questions asked until then: nothing was found for
it to be made to, or what was found cannot be given all changes up to it. -/
inductive Fails (changes : List FileEdit) : List (Ask ρ) → Nat → EditFault → Prop
  | unfound {past rest : List FileEdit} {change : FileEdit} {asks here : List (Ask ρ)}
      {grounds : String → Option Ground} {fault : EditFault} (listed : changes = past ++ change :: rest)
      (surveyed : Surveyed past asks grounds) (fit : Fit past grounds)
      (unknown : grounds change.uri = none) (found : Found change here (.error fault)) :
      Fails changes (asks ++ here) past.length fault
  | unfit {past rest : List FileEdit} {change : FileEdit} {asks : List (Ask ρ)}
      {grounds : String → Option Ground} {g : Ground} {fault : EditFault}
      (listed : changes = past ++ change :: rest)
      (surveyed : Surveyed (past ++ [change]) asks grounds) (fit : Fit past grounds)
      (found : grounds change.uri = some g)
      (failed : g.draft change.uri (past ++ [change]) = .error fault) :
      Fails changes asks past.length fault

/-! ### One change -/

section Change

variable {past : List FileEdit} {change : FileEdit} {grounds : String → Option Ground}
  {staged : List Staged} {g : Ground} {fault : EditFault} {text : String}

theorem stageAll_first (unknown : stagedFor? change.uri staged = none) (index : Nat)
    (rest : List FileEdit) :
    (stageAll index staged (change :: rest) : Routine Handler _) =
      (stage index change).bind fun
        | .error fault => .done (.error (fault, index))
        | .ok s => stageAll (index + 1) (staged ++ [s]) rest := by
  rw [stageAll, unknown]
  rfl

/-- A change that can be made to what was drafted before, of a document that has been found. -/
theorem stageAll_revised (h : Drafted past grounds staged) (known : grounds change.uri = some g)
    (drafted : g.draft change.uri (past ++ [change]) = .ok text) :
    ∃ staged', Drafted (past ++ [change]) grounds staged' ∧ ∀ index rest,
      (stageAll index staged (change :: rest) : Routine Handler _) =
        stageAll (index + 1) staged' rest := by
  obtain ⟨s, held, found, named, target, draft⟩ := h.known known
  rw [Ground.draft_snoc, draft] at drafted
  refine ⟨_, h.revised held named known target draft drafted, fun index rest => ?_⟩
  have revised : g.revise s.text change = .ok text := drafted
  simp only [stageAll, found, WorkspaceEdit.restage_eq target, revised, Except.map]

theorem stageAll_unrevised (h : Drafted past grounds staged) (known : grounds change.uri = some g)
    (failed : g.draft change.uri (past ++ [change]) = .error fault) (index : Nat)
    (rest : List FileEdit) :
    (stageAll index staged (change :: rest) : Routine Handler _) = .done (.error (fault, index)) := by
  obtain ⟨s, held, found, named, target, draft⟩ := h.known known
  rw [Ground.draft_snoc, draft] at failed
  have unrevised : g.revise s.text change = .error fault := failed
  simp only [stageAll, found, WorkspaceEdit.restage_eq target, unrevised, Except.map]
  rfl

/-- The first change of a document is made to it as it was found. -/
theorem stageAll_added {here : List (Ask ρ)} (h : Drafted past grounds staged)
    (unknown : grounds change.uri = none) (found : Found change here (.ok g))
    (drafted : g.draft change.uri (past ++ [change]) = .ok text) :
    ∃ staged', Drafted (past ++ [change]) (Function.update grounds change.uri (some g)) staged' ∧
      ∀ rest, Asked (stageAll past.length staged (change :: rest)) here
        (stageAll (past.length + 1) staged' rest) := by
  rw [h.draft_first unknown] at drafted
  refine ⟨_, h.added unknown drafted, fun rest => ?_⟩
  have asked := found.asked past.length
  simp only [Except.bind, Ground.stage, drafted, Except.map] at asked
  rw [stageAll_first (h.unknown unknown)]
  exact asked.bind _

theorem stageAll_unadded {here : List (Ask ρ)} (h : Drafted past grounds staged)
    (unknown : grounds change.uri = none) (found : Found change here (.ok g))
    (failed : g.draft change.uri (past ++ [change]) = .error fault) (rest : List FileEdit) :
    Asked (stageAll past.length staged (change :: rest)) here
      (.done (.error (fault, past.length))) := by
  rw [h.draft_first unknown] at failed
  have asked := found.asked past.length
  simp only [Except.bind, Ground.stage, failed, Except.map] at asked
  rw [stageAll_first (h.unknown unknown)]
  exact asked.bind _

theorem stageAll_unfound {here : List (Ask ρ)} (h : Drafted past grounds staged)
    (unknown : grounds change.uri = none) (found : Found change here (.error fault))
    (rest : List FileEdit) :
    Asked (stageAll past.length staged (change :: rest)) here
      (.done (.error (fault, past.length))) := by
  rw [stageAll_first (h.unknown unknown)]
  exact (found.asked past.length).bind _

end Change

/-! ### All changes -/

variable {changes past : List FileEdit} {asks before : List (Ask ρ)}
  {grounds : String → Option Ground} {staged : List Staged}

theorem Surveyed.asked (h : Surveyed past asks grounds) (fit : Fit past grounds) :
    ∃ staged, Drafted past grounds staged ∧
      ∀ rest, Asked (stageAll 0 [] (past ++ rest)) asks (stageAll past.length staged rest) := by
  induction h with
  | nil => exact ⟨[], .nil, fun rest => .nil⟩
  | @again past change asks grounds g surveyed known ih =>
      obtain ⟨staged, drafted, asked⟩ := ih fit.before
      obtain ⟨text, fits⟩ := fit _ _ known
      obtain ⟨staged', drafted', next⟩ := stageAll_revised drafted known fits
      refine ⟨staged', drafted', fun rest => ?_⟩
      rw [List.append_assoc, List.singleton_append, List.length_append, List.length_singleton,
        ← next]
      exact asked (change :: rest)
  | @first past change asks here grounds g surveyed unknown found ih =>
      obtain ⟨staged, drafted, asked⟩ := ih (fit.before.of_update unknown)
      obtain ⟨text, fits⟩ := fit change.uri g (Function.update_self ..)
      obtain ⟨staged', drafted', next⟩ := stageAll_added drafted unknown found fits
      refine ⟨staged', drafted', fun rest => ?_⟩
      rw [List.append_assoc, List.singleton_append, List.length_append, List.length_singleton]
      exact (asked (change :: rest)).append (next rest)

/-- The last change of a survey names a document that was known, or that was then found. -/
theorem Surveyed.last {change : FileEdit} (h : Surveyed (past ++ [change]) asks grounds) :
    (∃ g, grounds change.uri = some g ∧ Surveyed past asks grounds) ∨
      ∃ early here g old, asks = early ++ here ∧ grounds = Function.update old change.uri (some g) ∧
        old change.uri = none ∧ Surveyed past early old ∧ Found change here (.ok g) := by
  generalize all : past ++ [change] = changes at h
  cases h with
  | nil => exact absurd all (by simp)
  | again surveyed known =>
      obtain ⟨rfl, same⟩ := List.append_inj' all rfl
      obtain rfl := List.singleton_inj.mp same
      exact .inl ⟨_, known, surveyed⟩
  | first surveyed unknown found =>
      obtain ⟨rfl, same⟩ := List.append_inj' all rfl
      obtain rfl := List.singleton_inj.mp same
      exact .inr ⟨_, _, _, _, rfl, rfl, unknown, surveyed, found⟩

/-- What is known of a document was found by a change of it. -/
theorem Surveyed.found {uri : String} {g : Ground} (h : Surveyed past asks grounds)
    (known : grounds uri = some g) : ∃ early here late change, asks = early ++ here ++ late ∧
      change.uri = uri ∧ Found change here (.ok g) := by
  induction h with
  | nil => cases known
  | again surveyed _ ih => exact ih known
  | @first past change asks here grounds g' surveyed unknown found ih =>
      by_cases same : uri = change.uri
      · subst same
        rw [Function.update_self] at known
        obtain rfl := Option.some.inj known
        exact ⟨asks, here, [], change, (List.append_nil _).symm, rfl, found⟩
      · rw [Function.update_of_ne same] at known
        obtain ⟨early, there, late, other, rfl, named, seen⟩ := ih known
        exact ⟨early, there, late ++ here, other, by simp, named, seen⟩

/-- Staging ends at the first change that fails. -/
theorem Fails.asked {k : Nat} {fault : EditFault} (h : Fails changes asks k fault) :
    Asked (stageAll 0 [] changes) asks (.done (.error (fault, k))) := by
  cases h with
  | unfound listed surveyed fit unknown found =>
      subst listed
      obtain ⟨staged, drafted, asked⟩ := surveyed.asked fit
      exact (asked _).append (stageAll_unfound drafted unknown found _)
  | @unfit past rest change asks grounds g fault listed surveyed fit found failed =>
      subst listed
      rcases surveyed.last with ⟨g', known, surveyed⟩ |
          ⟨early, here, g', old, rfl, rfl, unknown, surveyed, seen⟩
      · obtain ⟨staged, drafted, asked⟩ := surveyed.asked fit
        rw [← stageAll_unrevised drafted found failed past.length rest]
        exact asked _
      · obtain ⟨staged, drafted, asked⟩ := surveyed.asked (fit.of_update unknown)
        rw [Function.update_self] at found
        obtain rfl := Option.some.inj found
        exact (asked _).append (stageAll_unadded drafted unknown seen failed rest)

/-- Staging that has ended has failed at the next change, or has come past it. -/
theorem staged_or_failed {change : FileEdit} {rest : List FileEdit}
    {result : Except (EditFault × Nat) (List Staged)} (surveyed : Surveyed past before grounds)
    (drafted : Drafted past grounds staged)
    (h : Asked (stageAll past.length staged (change :: rest)) asks (.done result)) :
    (∃ fault, result = .error (fault, past.length) ∧
        Fails (past ++ change :: rest) (before ++ asks) past.length fault) ∨
      ∃ here later grounds' staged', asks = here ++ later ∧
        Surveyed (past ++ [change]) (before ++ here) grounds' ∧
        Drafted (past ++ [change]) grounds' staged' ∧
        Asked (stageAll (past.length + 1) staged' rest) later (.done result) := by
  cases known : grounds change.uri with
  | some g =>
      have further := Surveyed.again surveyed known
      cases draft : g.draft change.uri (past ++ [change]) with
      | error fault =>
          rw [stageAll_unrevised drafted known draft] at h
          obtain ⟨rfl, same⟩ := h.of_done
          have fails : Fails (past ++ change :: rest) before past.length fault :=
            .unfit rfl further drafted.fit known draft
          rw [List.append_nil]
          exact .inl ⟨fault, Dialogue.done.inj same, fails⟩
      | ok text =>
          obtain ⟨staged', drafted', next⟩ := stageAll_revised drafted known draft
          rw [next] at h
          rw [← List.append_nil before] at further
          exact .inr ⟨[], asks, grounds, staged', rfl, further, drafted', h⟩
  | none =>
      have parts := h
      rw [stageAll_first (drafted.unknown known)] at parts
      obtain ⟨outcome, here, later, rfl, first, -⟩ := parts.of_bind_done
      obtain ⟨found, seen, -⟩ := found_of_asked first
      obtain ⟨stage, until_here, onwards⟩ := h.split
      cases found with
      | error fault =>
          obtain rfl := until_here.unique (stageAll_unfound drafted known seen rest)
          obtain ⟨rfl, same⟩ := onwards.of_done
          have fails : Fails (past ++ change :: rest) (before ++ here) past.length fault :=
            .unfound rfl surveyed drafted.fit known seen
          rw [List.append_nil]
          exact .inl ⟨fault, Dialogue.done.inj same, fails⟩
      | ok g =>
          have further := Surveyed.first surveyed known seen
          cases draft : g.draft change.uri (past ++ [change]) with
          | error fault =>
              obtain rfl := until_here.unique (stageAll_unadded drafted known seen draft rest)
              obtain ⟨rfl, same⟩ := onwards.of_done
              have untouched := Ground.draft_of_fresh (g := g) (drafted.fresh known)
              have fit := drafted.fit.update ⟨_, untouched⟩
              have fails : Fails (past ++ change :: rest) (before ++ here) past.length fault :=
                .unfit rfl further fit (Function.update_self ..) draft
              rw [List.append_nil]
              exact .inl ⟨fault, Dialogue.done.inj same, fails⟩
          | ok text =>
              obtain ⟨staged', drafted', next⟩ := stageAll_added drafted known seen draft
              obtain rfl := until_here.unique (next rest)
              exact .inr ⟨here, later, _, staged', rfl, further, drafted', onwards⟩

/-- Staging that has ended has failed at some change, or staged them all. -/
theorem ended_of_asked {rest : List FileEdit} {result : Except (EditFault × Nat) (List Staged)}
    (surveyed : Surveyed past before grounds) (drafted : Drafted past grounds staged)
    (h : Asked (stageAll past.length staged rest) asks (.done result)) :
    (∃ k fault, result = .error (fault, k) ∧ Fails (past ++ rest) (before ++ asks) k fault) ∨
      ∃ grounds staged, result = .ok staged ∧ Surveyed (past ++ rest) (before ++ asks) grounds ∧
        Drafted (past ++ rest) grounds staged := by
  induction rest generalizing past before grounds staged asks with
  | nil =>
      obtain ⟨rfl, same⟩ := h.of_done
      rw [List.append_nil, List.append_nil]
      exact .inr ⟨grounds, staged, Dialogue.done.inj same, surveyed, drafted⟩
  | cons change rest ih =>
      rcases staged_or_failed surveyed drafted h with ⟨fault, same, fails⟩ |
          ⟨here, later, grounds', staged', rfl, further, drafted', onwards⟩
      · exact .inl ⟨past.length, fault, same, fails⟩
      · have whole : past ++ change :: rest = past ++ [change] ++ rest := by simp
        rw [whole, ← List.append_assoc]
        refine ih further drafted' ?_
        rwa [List.length_append]

end ServerProbe.Mock
