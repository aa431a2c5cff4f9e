import ServerProbe.Proofs.Connection.Revision
/-!
How many hold a document open. Opening counts one holder more, closing one less. Only the last one may
find that the document cannot be closed, as the session does not let a client say so any more; then it
stays a holder. What is about other documents, or about none, changes nothing.
-/

namespace ServerProbe.Connection

open Rpc (Message)

variable {η : Type} {c : Connection η} {uri other : String}

theorem notificationAllowed_didClose_iff {s : Session.State} :
    Session.notificationAllowed s Method.didClose = true ↔ s = .initialized := by
  cases s <;> decide

/-! ### Opening and closing -/

/-- An opening that is refused leaves no trace. -/
theorem openDocument_counted (c : Connection η) (uri language text : String) :
    (∀ first, (c.openDocument uri language text).1 = .ok first →
      (c.openDocument uri language text).2.1.documents.count uri = c.documents.count uri + 1) ∧
    (∀ failure, (c.openDocument uri language text).1 = .error failure →
      (c.openDocument uri language text).2.1.documents.count uri = c.documents.count uri) := by
  unfold openDocument
  dsimp only
  split
  · exact ⟨fun first answer => (by cases answer), fun _ _ => rfl⟩
  · cases found : c.documents.find? uri with
    | some d =>
        rw [DocumentStore.register_again found]
        refine ⟨fun _ _ => ?_, fun failure answer => (by cases answer)⟩
        have now := congrFun (DocumentStore.find?_update found { d with count := d.count + 1 }) uri
        rw [Function.update_self] at now
        rw [DocumentStore.count_of_find? found]
        exact DocumentStore.count_of_find? now
    | none =>
        rw [DocumentStore.register_first found, DocumentStore.count_of_absent found]
        dsimp only
        split
        · refine ⟨fun first answer => (by cases answer), fun _ _ => ?_⟩
          have now := congrFun (DocumentStore.find?_remove
            ⟨c.documents.entries ++ [(uri, ⟨⟨language, text, 0⟩, 1⟩)]⟩ uri) uri
          rw [Function.update_self] at now
          exact DocumentStore.count_of_absent now
        · refine ⟨fun _ _ => ?_, fun failure answer => (by cases answer)⟩
          have now := congrFun (DocumentStore.find?_append found ⟨⟨language, text, 0⟩, 1⟩) uri
          rw [Function.update_self] at now
          exact DocumentStore.count_of_find? now

/-- What comes of closing a document that `n` others hold too: the answer, and how many hold it then. -/
inductive LetsGo (c : Connection η) (n : Nat) : Except Failure Bool → Nat → Prop
  | freely (last : Bool) (heard : 0 < n ∨ c.state = .initialized ∧ c.link = .up) :
      LetsGo c n (.ok last) n
  /-- The server can no longer be told, but the document is closed. -/
  | unheard {failure : Failure} (last : n = 0) (allowed : c.state = .initialized) (down : c.link ≠ .up)
      (failed : ∀ m, c.write m = .error failure) : LetsGo c n (.error failure) 0
  /-- The session forbids telling the server, and the document stays open. -/
  | barred (last : n = 0) (forbidden : c.state ≠ .initialized) :
      LetsGo c n (.error (c.session.refusal Method.didClose)) 1

theorem write_fails (down : c.link ≠ .up) : ∃ failure, ∀ m, c.write m = .error failure := by
  unfold write
  split
  · exact absurd ‹_› down
  · exact ⟨_, fun _ => rfl⟩
  · exact ⟨_, fun _ => rfl⟩

theorem closeDocument_shared {d : OpenDocument} (found : c.documents.find? uri = some d) {n : Nat}
    (held : d.count = n + 1 + 1) :
    c.LetsGo (n + 1) (c.closeDocument uri).1 ((c.closeDocument uri).2.1.documents.count uri) := by
  have others : (c.documents.count uri == 1) = false := by
    rw [DocumentStore.count_of_find? found, held, beq_eq_false_iff_ne]
    omega
  have many : ¬ n + 1 + 1 ≤ 1 := by omega
  have closed : c.documents.close uri =
      .ok (false, c.documents.update uri { d with count := n + 1 }) := by
    simp only [DocumentStore.close, found, held, many, if_false, Nat.add_sub_cancel]
  have now := congrFun (DocumentStore.find?_update found { d with count := n + 1 }) uri
  rw [Function.update_self] at now
  simp only [closeDocument, closed, others, Bool.false_eq_true, if_false,
    DocumentStore.count_of_find? now]
  exact .freely false (.inl (Nat.succ_pos n))

theorem closeDocument_alone {d : OpenDocument} (found : c.documents.find? uri = some d)
    (held : d.count = 1) :
    c.LetsGo 0 (c.closeDocument uri).1 ((c.closeDocument uri).2.1.documents.count uri) := by
  have one : (c.documents.count uri == 1) = true := by
    rw [DocumentStore.count_of_find? found, held, beq_self_eq_true]
  have closed : c.documents.close uri = .ok (true, c.documents.remove uri) := by
    simp only [DocumentStore.close, found, held, Nat.le_refl, if_true]
  have gone : (c.documents.remove uri).count uri = 0 := by
    refine DocumentStore.count_of_absent ?_
    rw [DocumentStore.find?_remove, Function.update_self]
  by_cases initialized : c.state = .initialized
  · have allowed := notificationAllowed_didClose_iff.mpr initialized
    simp only [closeDocument, closed, one, if_true, checkNotification_of_allowed allowed]
    by_cases up : c.link = .up
    · simp only [write, up, gone]
      exact .freely true (.inr ⟨initialized, up⟩)
    · obtain ⟨failure, failed⟩ := write_fails up
      have failed' (m : Message) : write { c with documents := c.documents.remove uri } m =
          .error failure := failed m
      simp only [failed', gone]
      exact .unheard rfl initialized up failed
  · have refused : c.session.checkNotification Method.didClose =
        .error (c.session.refusal Method.didClose) :=
      if_neg (mt notificationAllowed_didClose_iff.mp initialized)
    have kept : c.closeDocument uri = (.error (c.session.refusal Method.didClose), c, []) := by
      simp only [closeDocument, closed, one, if_true, refused]
    rw [kept, DocumentStore.count_of_find? found, held]
    exact .barred rfl initialized

theorem closeDocument_letsGo {n : Nat} (held : c.documents.count uri = n + 1) :
    c.LetsGo n (c.closeDocument uri).1 ((c.closeDocument uri).2.1.documents.count uri) := by
  cases found : c.documents.find? uri with
  | none =>
      rw [DocumentStore.count_of_absent found] at held
      cases held
  | some d =>
      rw [DocumentStore.count_of_find? found] at held
      cases n with
      | succ n => exact closeDocument_shared found held
      | zero => exact closeDocument_alone found held

theorem LetsGo.of_forbidden {n : Nat} {answer : Except Failure Bool} {left : Nat}
    (h : c.LetsGo n answer left) (alone : n = 0) (forbidden : c.state ≠ .initialized) :
    answer = .error (c.session.refusal Method.didClose) ∧ left = 1 := by
  cases h with
  | freely last heard =>
      rcases heard with more | ⟨initialized, -⟩
      · exact absurd alone (Nat.ne_of_gt more)
      · exact absurd initialized forbidden
  | unheard last allowed down failed => exact absurd allowed forbidden
  | barred last forbidden => exact ⟨rfl, rfl⟩

/-! ### Everything else -/

theorem openDocument_apart (apart : uri ≠ other) (language text : String) :
    (c.openDocument other language text).2.1.documents.find? uri = c.documents.find? uri := by
  unfold openDocument
  dsimp only
  split
  · rfl
  · cases found : c.documents.find? other with
    | some d =>
        rw [DocumentStore.register_again found]
        dsimp only
        rw [DocumentStore.find?_update found, Function.update_of_ne apart]
    | none =>
        rw [DocumentStore.register_first found]
        dsimp only
        split
        · dsimp only
          rw [DocumentStore.find?_remove, Function.update_of_ne apart, DocumentStore.find?_append found,
            Function.update_of_ne apart]
        · dsimp only
          rw [DocumentStore.find?_append found, Function.update_of_ne apart]

theorem changeDocument_apart (apart : uri ≠ other) (text : String) (base : Option Int32) :
    (c.changeDocument other text base).2.1.documents.find? uri = c.documents.find? uri := by
  by_cases h : Session.notificationAllowed c.state Method.didChange = true ∧
    ∃ version s, c.documents.change other text base = .ok (version, s)
  · obtain ⟨allowed, version, s, changed⟩ := h
    obtain ⟨d, held, -, rfl⟩ := DocumentStore.change_eq_ok changed
    rw [changeDocument_told changed allowed]
    dsimp only
    rw [DocumentStore.find?_update held, Function.update_of_ne apart]
  · rw [changeDocument_refused h]

theorem closeDocument_apart (apart : uri ≠ other) :
    (c.closeDocument other).2.1.documents.find? uri = c.documents.find? uri := by
  have closed {last : Bool} {s : DocumentStore} (h : c.documents.close other = .ok (last, s)) :
      s.find? uri = c.documents.find? uri := by
    obtain ⟨d, held, ⟨-, -, rfl⟩ | ⟨-, -, rfl⟩⟩ := DocumentStore.close_eq_ok h
    · rw [DocumentStore.find?_remove, Function.update_of_ne apart]
    · rw [DocumentStore.find?_update held, Function.update_of_ne apart]
  unfold closeDocument
  dsimp only
  split
  · rfl
  · rfl
  · rename_i h _
    exact closed h
  · rename_i h _
    split
    · exact closed h
    · exact closed h

/-- A document is kept as it is by all that is not about it. -/
theorem step_apart (c : Connection η) (now : Time) {i : Input η}
    (apart : ∀ command, i = .command command → command.uri? ≠ some uri) :
    (c.step now i).1.documents.find? uri = c.documents.find? uri := by
  have other_of {other : String} (h : some other ≠ some uri) : uri ≠ other :=
    fun same => h (congrArg some same.symm)
  by_cases filing : ∃ command : Command η, command.IsFiling ∧ i = .command command
  · obtain ⟨command, files, rfl⟩ := filing
    have apart := apart command rfl
    cases command with
    | openDocument other language text => exact openDocument_apart (other_of apart) language text
    | changeDocument other text base => exact changeDocument_apart (other_of apart) text base
    | closeDocument other => exact closeDocument_apart (other_of apart)
    | _ => exact files.elim
  · have same : (c.step now i).1.documents = c.documents := by
      refine (step_deeds c now i).documents_eq fun command files held => ?_
      exact filing ⟨command, files, (mem_acts held).symm⟩
    rw [same]

theorem run_apart {history : List (Time × Input η)} (c : Connection η)
    (apart : ∀ e ∈ history, ∀ command, e.2 = .command command → command.uri? ≠ some uri) :
    (c.run history).1.documents.find? uri = c.documents.find? uri := by
  induction history generalizing c with
  | nil => rfl
  | cons e history ih =>
      rw [run_cons, ih _ fun d held => apart d (List.mem_cons_of_mem e held)]
      exact c.step_apart e.1 (apart e List.mem_cons_self)

end ServerProbe.Connection
