import ServerProbe.Proofs.Mock.Applying
/-!
Edits that are refused. As long as not all changes have been staged an edit has only looked things up,
and where one cannot be staged it ends there, with a reply that names the change.
-/

namespace ServerProbe.Mock

open WorkspaceEdit (Fit Ground ofParams readParams)

variable {ρ : Type}

/-- The end of a handler that replies that nothing was applied, why, and at which change. -/
def Refuses (fault : EditFault) (change : Option Nat) (how : HandlerEnd) : Prop :=
  ∃ reply, how = .returned (.ok reply) ∧ reply.get? "applied" = some (.bool false) ∧
    reply.get? "failureReason" = some (.str fault.message) ∧
    reply.get? "failedChange" = change.map .nat

theorem replied_refuses (fault : EditFault) (change : Option Nat) :
    Refuses fault change (replied ⟨some (fault, change)⟩) :=
  ⟨_, rfl, failed_reply fault change⟩

/-- An operation on files among the listed changes makes the params unreadable. -/
theorem operation_unread {params : Option Json} {changes : WorkspaceEdit.Changes} {listed : List Json}
    {v : Json} {kind : String} (read : readParams (Json.orNull params) = .ok changes)
    (lists : changes.listed = some listed) (held : v ∈ listed)
    (operation : (v.get? "kind").bind Json.asString? = some kind) :
    ∃ fault, ofParams params = .error fault := by
  have refused : WorkspaceEdit.readListed v = .error (.unsupported kind) := by
    simp only [WorkspaceEdit.readListed, operation]
  have all : ofParams params = listed.mapM WorkspaceEdit.readListed := by
    have mapped : (readParams (Json.orNull params)).mapError EditFault.malformed = .ok changes := by
      rw [read]
      rfl
    simp only [ofParams, mapped, bind, Except.bind, lists]
  rw [all]
  clear lists all
  induction listed with
  | nil => cases held
  | cons first rest ih =>
      rw [List.mapM_cons]
      rcases List.mem_cons.mp held with rfl | later
      · exact ⟨_, by rw [refused]; rfl⟩
      · obtain ⟨fault, failed⟩ := ih later
        cases WorkspaceEdit.readListed first with
        | error fault => exact ⟨fault, rfl⟩
        | ok change => exact ⟨fault, by rw [failed]; rfl⟩

/-- How an edit that cannot be staged is refused, at any stage of its handler. -/
structure Refused (params : Option Json) (w : World ρ) (beats : List (Beat ρ))
    (s : Routine Handler HandlerEnd) : Prop where
  /-- If the params cannot be read, nothing is even asked. -/
  unread : ∀ fault, ofParams params = .error fault →
    asks beats = [] ∧ ∃ how, s = .done how ∧ Refuses fault none how
  operation : ∀ changes listed v kind, readParams (Json.orNull params) = .ok changes →
    changes.listed = some listed → v ∈ listed → (v.get? "kind").bind Json.asString? = some kind →
    ∃ fault, ofParams params = .error fault
  /-- Once a change has failed the edit is at its end, and has left the world as it was whenever it
  asked. -/
  unstaged : ∀ changes k fault, ofParams params = .ok changes → Fails changes (asks beats) k fault →
    (∀ a ∈ asks beats, a.next = a.world) ∧ ∃ how, s = .done how ∧ Refuses fault (some k) how
  /-- Nothing is changed before all changes have been staged. -/
  changed : ∀ early a late, asks beats = early ++ a :: late → a.next ≠ a.world →
    ∃ changes, ofParams params = .ok changes ∧ ∃ survey commits grounds, early = survey ++ commits ∧
      Surveyed changes survey grounds ∧ Fit changes grounds
  /-- An edit that has ended was unreadable, or failed at a change, or all of it was staged. -/
  ended : ∀ how, s = .done how → (∃ fault, ofParams params = .error fault) ∨
    ∃ changes, ofParams params = .ok changes ∧ ((∃ k fault, Fails changes (asks beats) k fault) ∨
      ∃ survey commits grounds, asks beats = survey ++ commits ∧ Surveyed changes survey grounds ∧
        Fit changes grounds)
  ends : ∃ more u how, Stretch w (Handler.run params .workspaceEdits) (beats ++ more) u (.done how)

variable {w v : World ρ} {params : Option Json} {changes : List FileEdit} {beats : List (Beat ρ)}
  {questions : List (Ask ρ)} {s : Routine Handler HandlerEnd}

theorem Fails.ends {k : Nat} {fault : EditFault} (fails : Fails changes questions k fault)
    (read : ofParams params = .ok changes)
    (asked : Asked (Handler.run params .workspaceEdits) questions s) :
    (∀ a ∈ questions, a.next = a.world) ∧ s = .done (replied ⟨some (fault, some k)⟩) := by
  rw [run_read read] at asked
  have ended := fails.asked
  refine ⟨fun a held => ?_, asked.unique (ended.bind proceed)⟩
  exact (((stageAll_confined changes 0 []).asked ended).2 a held).idle a.world

theorem unstaged_edit_refused (stretch : Stretch w (Handler.run params .workspaceEdits) beats v s) :
    Refused params w beats s where
  unread fault unread := by
    have asked := stretch.asked
    rw [run_unread unread] at asked
    obtain ⟨quiet, done⟩ := asked.of_done
    exact ⟨quiet, _, done, replied_refuses fault none⟩
  operation changes listed v kind := operation_unread
  unstaged changes k fault read fails := by
    obtain ⟨idle, done⟩ := fails.ends read stretch.asked
    exact ⟨idle, _, done, replied_refuses fault (some k)⟩
  changed early a late split active := by
    have asked := stretch.asked
    cases read : ofParams params with
    | error fault =>
        rw [run_unread read] at asked
        rw [asked.of_done.1] at split
        exact absurd split (by simp)
    | ok changes =>
        rw [split] at asked
        obtain ⟨survey, made, grounds, staged, parts, surveyed, drafted, -⟩ :=
          committing read asked fun looks => active (looks.idle a.world)
        exact ⟨changes, rfl, survey, made, grounds, parts, surveyed, drafted.fit⟩
  ended how done := by
    cases read : ofParams params with
    | error fault => exact .inl ⟨fault, rfl⟩
    | ok changes =>
        refine .inr ⟨changes, rfl, ?_⟩
        cases run_underway read stretch.asked with
        | staging _ ends =>
            obtain ⟨k, fault, fails, -⟩ := ends how done
            exact .inl ⟨k, fault, fails⟩
        | committing parts _ surveyed drafted =>
            exact .inr ⟨_, _, _, parts, surveyed, drafted.fit⟩
  ends := by
    have prompt : Confined (Prompt ρ) (Handler.run params .workspaceEdits) :=
      (run_edits params).mono fun q edits => edits.prompt
    obtain ⟨own, u, how, whole⟩ := stretch.finishes prompt
    exact ⟨own.map .own, u, how, whole⟩

/-- A world with a document open, at its first version. -/
def editing : World Unit :=
  { World.fresh .standard (.fresh []) with
    connection := { Connection.fresh .standard with
      documents := ⟨[("a", ⟨⟨"plaintext", "x", 0⟩, 1⟩)]⟩ } }

/-- Two changes of that document. The second one expects another version. -/
def staleEdit : Json :=
  .obj [("edit", .obj [("documentChanges", .arr [
    .obj [("edits", .arr []), ("textDocument", .obj [("uri", .str "a")])],
    .obj [("edits", .arr []), ("textDocument", .obj [("uri", .str "a"), ("version", .nat 3)])]])])]

theorem staleEdit_fails : Fails (ρ := Unit) [⟨"a", none, []⟩, ⟨"a", some 3, []⟩]
    [⟨editing, .command (.document "a")⟩] 1 (.document (.versionMismatch "a" 3 0)) := by
  let g : Ground := .opened ⟨"plaintext", "x", 0⟩
  have held : editing.connection.documents.get? "a" = some ⟨"plaintext", "x", 0⟩ := by decide
  have found : Found ⟨"a", none, []⟩ [⟨editing, .command (.document "a")⟩] (.ok g) :=
    .opened rfl held
  have first := Surveyed.first .nil rfl found
  have again : Surveyed ([⟨"a", none, []⟩] ++ [⟨"a", some 3, []⟩]) _ _ := first.again rfl
  have unchanged : g.draft "a" [⟨"a", none, []⟩] = .ok "x" := by
    change (WorkspaceEdit.applyEdits "x" []).bind pure = .ok "x"
    rw [WorkspaceEdit.applyEdits_nil]
    rfl
  have fit : Fit [⟨"a", none, []⟩] (Function.update (fun _ => none) "a" (some g)) :=
    Fit.update (fun _ _ unknown => by cases unknown) ⟨"x", unchanged⟩
  have failed : g.draft "a" ([⟨"a", none, []⟩] ++ [⟨"a", some 3, []⟩]) =
      .error (.document (.versionMismatch "a" 3 0)) := by
    refine (Ground.draft_snoc g [⟨"a", none, []⟩] ⟨"a", some 3, []⟩).trans ?_
    change (g.draft "a" [⟨"a", none, []⟩]).bind _ = _
    rw [unchanged]
    rfl
  have fails : Fails ([⟨"a", none, []⟩] ++ ⟨"a", some 3, []⟩ :: []) _ 1 _ :=
    .unfit rfl again fit rfl failed
  exact fails

theorem unstaged_edit_refused_stale :
    ∃ beats v how, Stretch editing (Handler.run (some staleEdit) .workspaceEdits) beats v (.done how) ∧
      (∀ a ∈ asks beats, a.next = a.world) ∧
      Refuses (.document (.versionMismatch "a" 3 0)) (some 1) how := by
  have read : ofParams (some staleEdit) = .ok [⟨"a", none, []⟩, ⟨"a", some 3, []⟩] := by rfl
  have stretch : Stretch editing (Handler.run (some staleEdit) .workspaceEdits)
      [.own ⟨editing, .command (.document "a")⟩] editing
      (.done (replied ⟨some (.document (.versionMismatch "a" 3 0), some 1)⟩)) := by
    refine ⟨Flow.cons (b := .own ⟨editing, .command (.document "a")⟩) .nil, ?_⟩
    rw [run_read read]
    exact staleEdit_fails.asked.bind proceed
  obtain ⟨idle, how, same, refuses⟩ :=
    (unstaged_edit_refused stretch).unstaged _ 1 _ read staleEdit_fails
  rw [← Dialogue.done.inj same] at refuses
  exact ⟨_, editing, _, stretch, idle, refuses⟩

end ServerProbe.Mock
