import ServerProbe.Proofs.Connection.Mirror
/-!
What an input does to the document that is open under a URI, whether or not the server hears of it.
Only a change of its own moves a document on, by one version, and only after it has been closed for
the last time is it opened anew, at the first version.
-/

namespace ServerProbe

namespace DocumentStore

variable {s : DocumentStore} {uri : String} {d e : OpenDocument}

/-- Where a store changes one entry, it changes the document under that URI. -/
theorem get?_of_update {t : DocumentStore} {entry : Option OpenDocument}
    (changed : t.find? = Function.update s.find? uri entry) (other : String) :
    t.get? other = if other = uri then entry.map (·.document) else s.get? other := by
  rw [get?, changed]
  by_cases same : other = uri
  · subst same
    rw [Function.update_self, if_pos rfl]
  · rw [Function.update_of_ne same, if_neg same]
    rfl

theorem get?_update (held : s.find? uri = some e) (d : OpenDocument) (other : String) :
    (s.update uri d).get? other = if other = uri then some d.document else s.get? other :=
  get?_of_update (find?_update held d) other

/-- Counting a document does not touch it. -/
theorem get?_counted (held : s.find? uri = some d) (n : Nat) (other : String) :
    (s.update uri { d with count := n }).get? other = s.get? other := by
  rw [get?_update held]
  split
  · rename_i same
    subst same
    rw [get?, held]
    rfl
  · rfl

theorem get?_remove (s : DocumentStore) (uri other : String) :
    (s.remove uri).get? other = if other = uri then none else s.get? other :=
  get?_of_update (find?_remove s uri) other

theorem get?_append (absent : s.find? uri = none) (d : OpenDocument) (other : String) :
    get? ⟨s.entries ++ [(uri, d)]⟩ other = if other = uri then some d.document else s.get? other :=
  get?_of_update (find?_append absent d) other

theorem change_current {text : String} {base : Option Int32} {version : Int32} {t : DocumentStore}
    (held : s.find? uri = some d) (h : s.change uri text base = .ok (version, t)) :
    ∀ v, base = some v → v = d.document.version := by
  rintro v rfl
  simp only [change, held] at h
  split at h
  · rename_i current
    exact eq_of_beq current
  · cases h

end DocumentStore

namespace Connection

variable {η : Type} {c : Connection η} {uri : String}

/-- What an input does to the document that is open under a URI. A change that names a version is only
made to that version. -/
inductive Revised (uri : String) : Input η → Option Document → Option Document → Prop
  | kept {i : Input η} {d : Option Document} : Revised uri i d d
  | opened (language text : String) :
      Revised uri (.command (.openDocument uri language text)) none (some ⟨language, text, 0⟩)
  | changed {d : Document} (text : String) (base : Option Int32)
      (current : ∀ v, base = some v → v = d.version) :
      Revised uri (.command (.changeDocument uri text base)) (some d)
        (some { d with text, version := d.version + 1 })
  | closed {d : Document} : Revised uri (.command (.closeDocument uri)) (some d) none

theorem openDocument_revised (c : Connection η) (uri other language text : String) :
    Revised other (.command (.openDocument uri language text) : Input η) (c.documents.get? other)
      ((c.openDocument uri language text).2.1.documents.get? other) := by
  unfold openDocument
  dsimp only
  split
  · exact .kept
  · cases found : c.documents.find? uri with
    | some d =>
        rw [DocumentStore.register_again found]
        dsimp only
        rw [DocumentStore.get?_counted found]
        exact .kept
    | none =>
        rw [DocumentStore.register_first found]
        dsimp only
        have absent : c.documents.get? uri = none := by rw [DocumentStore.get?, found]; rfl
        split
        · -- The server cannot be told, and the document is dropped again.
          dsimp only
          rw [DocumentStore.get?_remove, DocumentStore.get?_append found]
          split
          · rename_i same
            rw [same, absent]
            exact .kept
          · exact .kept
        · dsimp only
          rw [DocumentStore.get?_append found]
          split
          · rename_i same
            rw [same, absent]
            exact .opened language text
          · exact .kept

theorem changeDocument_revised (c : Connection η) (uri other text : String) (base : Option Int32) :
    Revised other (.command (.changeDocument uri text base) : Input η) (c.documents.get? other)
      ((c.changeDocument uri text base).2.1.documents.get? other) := by
  by_cases h : Session.notificationAllowed c.state Method.didChange = true ∧
    ∃ version s, c.documents.change uri text base = .ok (version, s)
  · obtain ⟨allowed, version, s, changed⟩ := h
    obtain ⟨d, held, next, rfl⟩ := DocumentStore.change_eq_ok changed
    rw [changeDocument_told changed allowed]
    dsimp only
    rw [DocumentStore.get?_update held]
    split
    · rename_i same
      subst same
      have before : c.documents.get? other = some d.document := by rw [DocumentStore.get?, held]; rfl
      rw [before, next]
      exact .changed text base (DocumentStore.change_current held changed)
    · exact .kept
  · rw [changeDocument_refused h]
    exact .kept

/-- A change that is accepted moves the document on by one version, and the server is told so. -/
theorem changeDocument_accepted {text : String} {base : Option Int32} {answer : Int}
    (accepted : (c.changeDocument uri text base).1 = .ok answer) :
    ∃ d, ∃ version : Int32, c.documents.find? uri = some d ∧ (∀ v, base = some v → v = d.document.version) ∧
      version = d.document.version + 1 ∧ answer = version ∧ (c.changeDocument uri text base).2 =
        ({ c with documents :=
            c.documents.update uri { d with document := { d.document with text, version } } },
          [.wrote (notice Method.didChange (Payload.didChange uri version text))]) := by
  have went : c.link = .up ∧ Session.notificationAllowed c.state Method.didChange = true ∧
      ∃ version : Int32, ∃ s, answer = version ∧ c.documents.change uri text base = .ok (version, s) := by
    unfold changeDocument at accepted
    split at accepted
    · cases accepted
    · split at accepted
      · cases accepted
      · rename_i allowed
        split at accepted
        · cases accepted
        · rename_i moved s changed
          dsimp only at accepted
          split at accepted
          · cases accepted
          · rename_i out wrote
            refine ⟨?_, checkNotification_eq_ok allowed, moved, s, (Except.ok.inj accepted).symm, changed⟩
            by_contra down
            obtain ⟨failure, failed⟩ := write_down (c := { c with documents := s }) down
              (notice Method.didChange (Payload.didChange uri moved text))
            cases wrote.symm.trans failed
  obtain ⟨up, allowed, version, s, same, changed⟩ := went
  obtain ⟨d, held, next, rfl⟩ := DocumentStore.change_eq_ok changed
  refine ⟨d, version, held, DocumentStore.change_current held changed, next, same, ?_⟩
  rw [changeDocument_told changed allowed, told, if_pos up]

theorem closeDocument_revised (c : Connection η) (uri other : String) :
    Revised other (.command (.closeDocument uri) : Input η) (c.documents.get? other)
      ((c.closeDocument uri).2.1.documents.get? other) := by
  unfold closeDocument
  dsimp only
  split
  · exact .kept
  · exact .kept
  · rename_i closed _
    obtain ⟨d, held, ⟨same, -⟩ | ⟨-, -, rfl⟩⟩ := DocumentStore.close_eq_ok closed
    · cases same
    · dsimp only
      rw [DocumentStore.get?_counted held]
      exact .kept
  · rename_i closed _
    obtain ⟨d, held, ⟨-, -, rfl⟩ | ⟨same, -⟩⟩ := DocumentStore.close_eq_ok closed
    · have gone : Revised other (.command (.closeDocument uri) : Input η) (c.documents.get? other)
          ((c.documents.remove uri).get? other) := by
        rw [DocumentStore.get?_remove]
        split
        · rename_i same
          subst same
          rw [DocumentStore.get?, held]
          exact .closed
        · exact .kept
      split
      · exact gone
      · exact gone
    · cases same

theorem Deeds.documents_eq {now : Time} {acts : List (Act η)} {c d : Connection η}
    {out : List (Output η)} (h : Deeds now acts c d out)
    (other : ∀ command : Command η, command.IsFiling → .input (.command command) ∉ acts) :
    d.documents = c.documents := by
  induction h with
  | nil => rfl
  | @cons act acts c d e out later first rest ih =>
      have here := first.documents_eq fun command filing same =>
        other command filing (same ▸ List.mem_cons_self)
      have there := ih fun command filing held => other command filing (List.mem_cons_of_mem act held)
      exact there.trans here

/-- Nothing that happens on an input that does not deal with documents tells of them. -/
theorem Deeds.untold {now : Time} {acts : List (Act η)} {c d : Connection η}
    {out : List (Output η)} (h : Deeds now acts c d out)
    (other : ∀ command : Command η, command.IsFiling → .input (.command command) ∉ acts)
    (honest : ∀ i, .input i ∈ acts → ¬ i.Forges) : (sent out).filterMap Filing.read? = [] := by
  induction h with
  | nil => rfl
  | @cons act acts c d e out later first rest ih =>
      have here := first.untold
        (fun command filing same => other command filing (same ▸ List.mem_cons_self))
        fun i own => honest i (own ▸ List.mem_cons_self)
      have there := ih (fun command filing held => other command filing (List.mem_cons_of_mem act held))
        fun i own => honest i (List.mem_cons_of_mem act own)
      rw [sent_append, List.filterMap_append, here, there]
      rfl

theorem step_revised (c : Connection η) (now : Time) (i : Input η) (uri : String) :
    Revised uri i (c.documents.get? uri) ((c.step now i).1.documents.get? uri) := by
  by_cases filing : ∃ command : Command η, command.IsFiling ∧ i = .command command
  · obtain ⟨command, files, rfl⟩ := filing
    cases command with
    | openDocument other language text => exact openDocument_revised c other uri language text
    | changeDocument other text base => exact changeDocument_revised c other uri text base
    | closeDocument other => exact closeDocument_revised c other uri
    | _ => exact files.elim
  · have same : (c.step now i).1.documents = c.documents := by
      refine (step_deeds c now i).documents_eq fun command files held => ?_
      exact filing ⟨command, files, (mem_acts held).symm⟩
    rw [same]
    exact .kept

end Connection
end ServerProbe
