import ServerProbe.Proofs.Mock.Survey
/-!
The edit of a server request as a whole: it stages all changes before it commits any, and its reply
says what came of it. The questions it asks are to look things up, and then to commit what was staged.
-/

namespace ServerProbe.Mock

open WorkspaceEdit (Applied Drafted Ground Staged stageAll commit commitAll applyParams ofParams)

variable {ρ : Type}

/-! ### Commits -/

/-- The question by which a draft is committed. -/
def commitQuestion (s : Staged) : Question Handler :=
  match s.target with
  | .opened base => .command (.changeDocument s.uri s.text (some base))
  | .file path => .writeFile path s.text

def committed (answer : Option (Except Failure Int)) : Except EditFault Unit :=
  match Client.flatten answer with
  | .error (.document fault) => .error (.document fault)
  | .error failure => .error (.client failure)
  | .ok _ => .ok ()

theorem commit_opened {s : Staged} {base : Int32} (target : s.target = .opened base) :
    commit s = .ask (.command (.changeDocument s.uri s.text (some base)))
      fun answer => (.done (committed answer) : Routine Handler _) := by
  unfold commit
  rw [target]
  refine congrArg (Dialogue.ask (Question.command (.changeDocument s.uri s.text (some base)))) ?_
  funext answer
  rcases answer with _ | failure | version
  · rfl
  · cases failure <;> rfl
  · rfl

theorem commit_file {s : Staged} {path : String} (target : s.target = .file path) :
    commit s = .ask (.writeFile path s.text)
      fun answer => (.done (answer.mapError (.inaccessible path)) : Routine Handler _) := by
  unfold commit
  rw [target]
  rfl

theorem commitAll_cons (s : Staged) (rest : List Staged) :
    (commitAll (s :: rest) : Routine Handler _) = (commit s).bind fun
      | .error fault => .done (.error (fault, s.change))
      | .ok _ => commitAll rest := by
  rw [commitAll]
  rfl

theorem commit_confined (s : Staged) : Confined (· = commitQuestion s) (commit s) := by
  unfold commitQuestion
  cases target : s.target with
  | opened base =>
      rw [commit_opened target]
      exact .ask rfl fun answer => .done
  | file path =>
      rw [commit_file target]
      exact .ask rfl fun answer => .done

theorem commitAll_confined (staged : List Staged) :
    Confined (fun q => ∃ s ∈ staged, q = commitQuestion s) (commitAll staged) := by
  induction staged with
  | nil => exact .done
  | cons s rest ih =>
      rw [commitAll_cons]
      have first : Confined (fun q => ∃ t ∈ s :: rest, q = commitQuestion t) (commit s) :=
        (commit_confined s).mono fun q same => ⟨s, List.mem_cons_self, same⟩
      refine first.bind fun result => ?_
      cases result with
      | error fault => exact .done
      | ok _ => exact ih.mono fun q ⟨t, held, same⟩ => ⟨t, List.mem_cons_of_mem s held, same⟩

theorem stageAll_confined (changes : List FileEdit) (index : Nat) (staged : List Staged) :
    Confined Looks (stageAll index staged changes) := by
  induction changes generalizing index staged with
  | nil => exact .done
  | cons change rest ih =>
      cases found : WorkspaceEdit.stagedFor? change.uri staged with
      | some prior =>
          simp only [stageAll, found]
          cases WorkspaceEdit.restage prior change with
          | error fault => exact .done
          | ok s => exact ih _ _
      | none =>
          rw [stageAll_first found]
          refine (stage_confined index change).bind fun result => ?_
          cases result with
          | error fault => exact .done
          | ok s => exact ih _ _

/-! ### The handler -/

def replied (a : Applied) : HandlerEnd := .returned (.ok a.toJson)

/-- The members of a reply stand in the order of their keys. -/
theorem failed_toJson (fault : EditFault) (change : Option Nat) :
    Applied.toJson ⟨some (fault, change)⟩ = .obj (("applied", .bool false) ::
      ((change.map fun index => ("failedChange", .nat index)).toList ++
        [("failureReason", .str fault.message)])) := by
  have reason_applied : ¬ "failureReason" < "applied" := by decide +kernel
  have change_applied : ¬ "failedChange" < "applied" := by decide +kernel
  have change_reason : "failedChange" < "failureReason" := by decide +kernel
  have members : Applied.toJson ⟨some (fault, change)⟩ = .ofMembers (("applied", .bool false) ::
      ("failureReason", .str fault.message) ::
        (change.map fun index => ("failedChange", .nat index)).toList) := by
    cases change <;> rfl
  rw [members]
  cases change <;>
    simp only [Json.ofMembers, Json.ordered, Option.map_none, Option.map_some, Option.toList_none,
      Option.toList_some, List.foldl_cons, List.foldl_nil, Json.set, String.reduceBEq,
      Bool.false_eq_true, if_false, if_true, reason_applied, change_applied, change_reason,
      List.nil_append, List.singleton_append]

/-- What a reply says of an edit that has failed. -/
theorem failed_reply (fault : EditFault) (change : Option Nat) :
    (Applied.toJson ⟨some (fault, change)⟩).get? "applied" = some (.bool false) ∧
      (Applied.toJson ⟨some (fault, change)⟩).get? "failureReason" = some (.str fault.message) ∧
      (Applied.toJson ⟨some (fault, change)⟩).get? "failedChange" = change.map .nat := by
  rw [failed_toJson]
  cases change with
  | none => exact ⟨rfl, rfl, rfl⟩
  | some index => exact ⟨rfl, rfl, rfl⟩

/-- How an edit goes on once it has committed what it could. -/
def conclude : Except (EditFault × Nat) Unit → Routine Handler HandlerEnd
  | .error (fault, change) => .done (replied ⟨some (fault, some change)⟩)
  | .ok _ => .done (replied ⟨none⟩)

/-- How an edit goes on once staging has ended. -/
def proceed : Except (EditFault × Nat) (List Staged) → Routine Handler HandlerEnd
  | .error (fault, change) => .done (replied ⟨some (fault, some change)⟩)
  | .ok staged => (commitAll staged).bind conclude

variable {params : Option Json} {changes : List FileEdit} {fault : EditFault}

theorem run_unread (unread : ofParams params = .error fault) :
    Handler.run params .workspaceEdits = .done (replied ⟨some (fault, none)⟩) := by
  simp only [Handler.run, applyParams, unread]
  rfl

theorem run_read (read : ofParams params = .ok changes) :
    Handler.run params .workspaceEdits = (stageAll 0 [] changes).bind proceed := by
  simp only [Handler.run, applyParams, read]
  refine (Dialogue.bind_assoc (stageAll 0 [] changes) _ _).trans (congrArg _ ?_)
  funext result
  rcases result with ⟨fault, index⟩ | staged
  · rfl
  · refine (Dialogue.bind_assoc (commitAll staged) _ _).trans (congrArg _ ?_)
    funext result
    rcases result with ⟨fault, index⟩ | done <;> rfl

/-- A question of an edit. -/
inductive Edits : Question Handler → Prop
  | looks {q : Question Handler} (looks : Looks q) : Edits q
  | commits (s : Staged) : Edits (commitQuestion s)

theorem Edits.prompt {q : Question Handler} (h : Edits q) : Prompt ρ q := by
  cases h with
  | looks looks => exact looks.prompt
  | commits s =>
      intro w
      unfold commitQuestion
      cases s.target with
      | opened base =>
          simp only [World.answer]
          split <;> rfl
      | file path =>
          simp only [World.answer]
          split <;> rfl

theorem run_edits (params : Option Json) : Confined Edits (Handler.run params .workspaceEdits) := by
  cases read : ofParams params with
  | error fault =>
      rw [run_unread read]
      exact .done
  | ok changes =>
      rw [run_read read]
      refine ((stageAll_confined changes 0 []).mono fun q looks => .looks looks).bind fun result => ?_
      rcases result with ⟨fault, index⟩ | staged
      · exact .done
      · refine ((commitAll_confined staged).mono ?_).bind fun result => ?_
        · rintro q ⟨s, -, rfl⟩
          exact .commits s
        · rcases result with ⟨fault, index⟩ | _ <;> exact .done

/-- How far an edit is whose params could be read. -/
inductive Underway (changes : List FileEdit) (asks : List (Ask ρ)) (s : Routine Handler HandlerEnd) :
    Prop
  /-- It has only looked things up. If it is at its end, it has failed at a change. -/
  | staging (looks : ∀ a ∈ asks, Looks a.question)
      (ends : ∀ how, s = .done how →
        ∃ k fault, Fails changes asks k fault ∧ how = replied ⟨some (fault, some k)⟩)
  /-- It has staged all changes, and goes on to commit them. -/
  | committing {early late : List (Ask ρ)} {grounds : String → Option Ground} {staged : List Staged}
      (parts : asks = early ++ late) (looks : ∀ a ∈ early, Looks a.question)
      (surveyed : Surveyed changes early grounds) (drafted : Drafted changes grounds staged)
      (commits : Asked ((commitAll staged).bind conclude) late s)

theorem stageAll_looks {asks : List (Ask ρ)} {index : Nat} {staged : List Staged}
    {s : Routine Handler (Except (EditFault × Nat) (List Staged))}
    (asked : Asked (stageAll index staged changes) asks s) : ∀ a ∈ asks, Looks a.question :=
  ((stageAll_confined changes index staged).asked asked).2

/-- The two cases of a staging that has ended. -/
theorem Underway.of_staged {early late : List (Ask ρ)} {s : Routine Handler HandlerEnd}
    {result : Except (EditFault × Nat) (List Staged)}
    (first : Asked (stageAll 0 [] changes) early (.done result))
    (rest : Asked (proceed result) late s) : Underway changes (early ++ late) s := by
  have looks := stageAll_looks first
  rcases ended_of_asked .nil .nil first with ⟨k, fault, rfl, fails⟩ |
      ⟨grounds, staged, rfl, surveyed, drafted⟩
  · obtain ⟨rfl, same⟩ := rest.of_done
    rw [List.append_nil]
    refine .staging looks fun how ends => ⟨k, fault, fails, ?_⟩
    exact Dialogue.done.inj (ends.symm.trans same)
  · exact .committing rfl looks surveyed drafted rest

theorem run_underway {asks : List (Ask ρ)} {s : Routine Handler HandlerEnd}
    (read : ofParams params = .ok changes)
    (h : Asked (Handler.run params .workspaceEdits) asks s) : Underway changes asks s := by
  rw [run_read read] at h
  rcases h.of_bind with ⟨stage, first, rfl⟩ | ⟨result, early, late, rfl, first, rest⟩
  · cases stage with
    | done result =>
        rw [← List.append_nil asks]
        exact .of_staged first .nil
    | ask q next => exact .staging (stageAll_looks first) fun how ends => by cases ends
  · exact .of_staged first rest

/-- What is not just looked up is the commit of a draft, after a whole survey. -/
theorem committing {early late : List (Ask ρ)} {a : Ask ρ} {s : Routine Handler HandlerEnd}
    (read : ofParams params = .ok changes)
    (asked : Asked (Handler.run params .workspaceEdits) (early ++ a :: late) s)
    (commits : ¬ Looks a.question) :
    ∃ survey made grounds staged, early = survey ++ made ∧ Surveyed changes survey grounds ∧
      Drafted changes grounds staged ∧ ∃ d ∈ staged, a.question = commitQuestion d := by
  cases run_underway read asked with
  | staging looks => exact absurd (looks a (List.mem_append_right _ List.mem_cons_self)) commits
  | @committing survey rest grounds staged parts looks surveyed drafted asked =>
      have made : ∀ b ∈ rest, ∃ d ∈ staged, b.question = commitQuestion d := by
        refine (((commitAll_confined staged).bind fun result => ?_).asked asked).2
        rcases result with ⟨fault, index⟩ | _ <;> exact .done
      rcases List.append_eq_append_iff.mp parts with ⟨between, rfl, same⟩ | ⟨between, rfl, same⟩
      · cases between with
        | nil =>
            rw [List.append_nil] at surveyed
            rw [List.nil_append] at same
            refine ⟨early, [], grounds, staged, (List.append_nil early).symm, surveyed, drafted, ?_⟩
            exact made a (same ▸ List.mem_cons_self)
        | cons first between =>
            -- The question would be one of the survey.
            obtain ⟨rfl, -⟩ := List.cons.inj same
            exact absurd (looks a (List.mem_append_right _ List.mem_cons_self)) commits
      · refine ⟨survey, between, grounds, staged, rfl, surveyed, drafted, made a ?_⟩
        rw [same]
        exact List.mem_append_right _ List.mem_cons_self

/-! ### Texts put in front -/

/-- The change that puts a text at the front of a document. -/
def front (t : String × String) : FileEdit := ⟨t.1, none, [⟨⟨⟨0, 0⟩, ⟨0, 0⟩⟩, t.2⟩]⟩

/-- The same as it stands in the params. -/
def frontJson (t : String × String) : Json :=
  let front : Json := .obj [("character", .nat 0), ("line", .nat 0)]
  let edit : Json :=
    .obj [("newText", .str t.2), ("range", .obj [("end", front), ("start", front)])]
  .obj [("edits", .arr [edit]), ("textDocument", .obj [("uri", .str t.1)])]

def fronts (texts : List (String × String)) : List FileEdit := texts.map front

/-- The params that ask for such changes. -/
def frontsParams (texts : List (String × String)) : Json :=
  .obj [("edit", .obj [("documentChanges", .arr (texts.map frontJson))])]

/-- The edit that makes such changes. -/
def insertions (texts : List (String × String)) : Routine Handler HandlerEnd :=
  Handler.run (some (frontsParams texts)) .workspaceEdits

theorem readParams_listed (listed : List Json) :
    WorkspaceEdit.readParams (.obj [("edit", .obj [("documentChanges", .arr listed)])]) =
      .ok ⟨none, some listed⟩ := by
  have kept : (Json.arr listed).toItems Except.ok = (.ok listed : Json.Shaped (List Json)) :=
    (List.mapM_pure (f := id)).trans (congrArg _ (List.map_id listed))
  have read : WorkspaceEdit.readChanges (.obj [("documentChanges", .arr listed)]) =
      .ok ⟨none, some listed⟩ := by
    simp [WorkspaceEdit.readChanges, RecordShape.visit, RecordShape.visitMembers,
      RecordShape.names, Json.toOption, kept, Except.map]
  simp only [WorkspaceEdit.readParams, RecordShape.visit, RecordShape.visitMembers, read]
  rfl

theorem ofParams_fronts (texts : List (String × String)) :
    ofParams (some (frontsParams texts)) = .ok (fronts texts) := by
  have all : ofParams (some (frontsParams texts)) =
      (texts.map frontJson).mapM WorkspaceEdit.readListed := by
    simp only [ofParams, frontsParams, Json.orNull, Option.getD_some, readParams_listed]
    rfl
  have each : WorkspaceEdit.readListed ∘ frontJson = fun t => pure (front t) := by
    funext t
    rfl
  rw [all, List.mapM_map, each]
  exact List.mapM_pure

end ServerProbe.Mock
