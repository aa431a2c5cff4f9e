import ServerProbe.Framing.Stream
import ServerProbe.Proofs.Connection.Moment
/-!
Commands that are refused. They leave no trace but one: a change or the last closing of a document stands
even if the writer is gone, where an opening and a request are taken back.
-/

namespace ServerProbe

/-- The answer refuses the command. -/
def Command.Refused {η : Type} : (command : Command η) → command.Answer → Prop
  | .request _ _ _, answer => ∃ failure, answer = .error failure
  | .notify _ _, answer => ∃ failure, answer = .error failure
  | .openDocument _ _ _, answer => ∃ failure, answer = .error failure
  | .changeDocument _ _ _, answer => ∃ failure, answer = .error failure
  | .closeDocument _, answer => ∃ failure, answer = .error failure
  | _, _ => False

/-- The trace that a command leaves in a store though the server cannot be told of it. -/
inductive Command.Stands {η : Type} (s : DocumentStore) : Command η → DocumentStore → Prop
  | changed {uri text : String} {base : Option Int32} {version : Int32} {t : DocumentStore}
      (changed : s.change uri text base = .ok (version, t)) : Stands s (.changeDocument uri text base) t
  | closed {uri : String} {t : DocumentStore} (closed : s.close uri = .ok (true, t)) :
      Stands s (.closeDocument uri) t

namespace DocumentStore

variable {s : DocumentStore} {uri : String}

theorem ne_of_absent {uri : String} : ∀ {entries : List (String × OpenDocument)},
    findIn uri entries = none → ∀ e ∈ entries, e.1 ≠ uri
  | [], _, _, held => nomatch held
  | (k, d) :: rest, absent, e, held => by
      unfold findIn at absent
      split at absent
      · cases absent
      · rename_i other
        rcases List.mem_cons.mp held with rfl | later
        · simpa using other
        · exact ne_of_absent absent e later

/-- A document that is taken back as soon as it was put in leaves the store as it was. -/
theorem remove_appended (absent : s.find? uri = none) (d : OpenDocument) :
    remove ⟨s.entries ++ [(uri, d)]⟩ uri = s := by
  have others : s.entries.filter (fun e => e.1 != uri) = s.entries := by
    refine List.filter_eq_self.mpr fun e held => ?_
    simpa only [bne_iff_ne] using ne_of_absent absent e held
  have own : [(uri, d)].filter (fun e => e.1 != uri) = [] := by simp
  rw [remove, List.filter_append, others, own, List.append_nil]

/-- What stands is a trace: the store is not what it was. -/
theorem ne_of_stands {η : Type} {command : Command η} {t : DocumentStore} (stands : command.Stands s t) :
    t ≠ s := by
  intro same
  cases stands with
  | @changed uri text base version t changed =>
      obtain ⟨d, held, next, updated⟩ := change_eq_ok changed
      have found := congrFun (find?_update held { d with document := { d.document with text, version } }) uri
      rw [← updated, same, held, Function.update_self] at found
      have version_eq := congrArg (fun d => d.map fun d => d.document.version) found
      simp only [Option.map_some, Option.some.injEq] at version_eq
      exact absurd (Int32.left_eq_add.mp (version_eq.trans next)) (by decide)
  | @closed uri t closed =>
      obtain ⟨d, held, ⟨-, -, removed⟩ | ⟨last, -⟩⟩ := close_eq_ok closed
      · have lost := congrFun (find?_remove s uri) uri
        rw [← removed, same, held, Function.update_self] at lost
        cases lost
      · cases last

end DocumentStore

namespace Connection

open Rpc (Id)

variable {η : Type} {c : Connection η}

/-- What is left of a command that is refused. -/
structure Retraction (c : Connection η) (command : Command η) (turn : Turn η) : Prop where
  silent : turn.2 = []
  session : turn.1.session = c.session
  outstanding : turn.1.calls.outstanding = c.calls.outstanding
  documents : turn.1.documents = c.documents ∨
    c.link ≠ .up ∧ command.Stands c.documents turn.1.documents

theorem Retraction.unchanged (c : Connection η) (command : Command η) :
    Retraction c command (c, []) := ⟨rfl, rfl, rfl, .inl rfl⟩

theorem sendRequest_refused (sound : c.calls.Sound) {now : Time} {method : String}
    {params : Option Json} {timeout : Option Span} {failure : Failure}
    (refused : (c.sendRequest now method params timeout).1 = .error failure) :
    Retraction c (.request method params timeout) (c.sendRequest now method params timeout).2 := by
  unfold sendRequest at refused ⊢
  have inserted : c.calls.insert now method (timeout <|> c.defaultTimeout method) =
      (c.calls.next, c.registered now method timeout) := rfl
  rw [inserted] at refused ⊢
  split
  · exact .unchanged c _
  · exact .unchanged c _
  · rename_i valid allowed
    simp only [valid, allowed] at refused
    cases written : c.write (.request ⟨.number c.calls.next, method, params⟩) with
    | ok out =>
        simp only [written] at refused
        split at refused <;> cases refused
    | error lost =>
        simp only [written]
        refine ⟨rfl, rfl, ?_, .inl rfl⟩
        have same : ((c.registered now method timeout).forget c.calls.next).calls = c.calls.calls :=
          CallTable.forget_insert_calls sound now method _
        simp only [CallTable.outstanding, same]

theorem sendNotification_refused {method : String} {params : Option Json}
    {failure : Failure} (refused : (c.sendNotification method params).1 = .error failure) :
    Retraction c (.notify method params) (c.sendNotification method params).2 := by
  unfold sendNotification at refused ⊢
  split
  · exact .unchanged c _
  · exact .unchanged c _
  · rename_i valid allowed
    simp only [valid, allowed] at refused
    cases written : c.write (.notification ⟨method, params⟩) with
    | ok out =>
        simp only [written] at refused
        split at refused <;> cases refused
    | error lost => exact .unchanged c _

/-- A first opening that cannot be written is taken back. -/
theorem openDocument_taken_back (counted : c.documents.Counted) {uri language text : String}
    {failure : Failure} (refused : (c.openDocument uri language text).1 = .error failure) :
    Retraction c (.openDocument uri language text) (c.openDocument uri language text).2 := by
  cases found : c.documents.find? uri with
  | some d =>
      have known : (c.documents.count uri == 0) = false := by
        rw [DocumentStore.count_of_find? found, beq_eq_false_iff_ne]
        exact Nat.ne_of_gt (counted.find? found)
      simp only [openDocument, known, Bool.false_eq_true, if_false, DocumentStore.register_again found]
        at refused
      cases refused
  | none =>
      by_cases allowed : Session.notificationAllowed c.state Method.didOpen = true
      · rw [openDocument_first found allowed]
        by_cases up : c.link = .up
        · simp only [openDocument, DocumentStore.count_of_absent found, beq_self_eq_true, if_true,
            checkNotification_of_allowed allowed, DocumentStore.register_first found, write_up up] at refused
          cases refused
        · rw [if_neg up, DocumentStore.remove_appended found]
          exact .unchanged c _
      · rw [openDocument_refused found allowed]
        exact .unchanged c _

theorem changeDocument_stands {uri text : String} {base : Option Int32} {failure : Failure}
    (refused : (c.changeDocument uri text base).1 = .error failure) :
    Retraction c (.changeDocument uri text base) (c.changeDocument uri text base).2 := by
  by_cases h : Session.notificationAllowed c.state Method.didChange = true ∧
      ∃ version s, c.documents.change uri text base = .ok (version, s)
  · obtain ⟨allowed, version, s, changed⟩ := h
    have down : c.link ≠ .up := by
      intro up
      obtain ⟨d, held, -⟩ := DocumentStore.change_eq_ok changed
      simp only [changeDocument, DocumentStore.get?, held, Option.map_some, Option.isNone_some,
        Bool.false_eq_true, if_false, checkNotification_of_allowed allowed, changed, write, up] at refused
      cases refused
    rw [changeDocument_told changed allowed, told, if_neg down]
    exact ⟨rfl, rfl, rfl, .inr ⟨down, .changed changed⟩⟩
  · rw [changeDocument_refused h]
    exact .unchanged c _

theorem closeDocument_stands {uri : String} {failure : Failure}
    (refused : (c.closeDocument uri).1 = .error failure) :
    Retraction c (.closeDocument uri) (c.closeDocument uri).2 := by
  unfold closeDocument at refused ⊢
  dsimp only at refused ⊢
  generalize (if c.documents.count uri == 1 then c.session.checkNotification Method.didClose
    else .ok ()) = gate at refused ⊢
  cases closed : c.documents.close uri with
  | error fault => exact .unchanged c _
  | ok result =>
      obtain ⟨last, documents⟩ := result
      rw [closed] at refused
      cases gate with
      | error failure => exact .unchanged c _
      | ok _ =>
          cases last with
          | false => cases refused
          | true =>
              cases link : c.link with
              | up =>
                  simp only [write, link] at refused
                  cases refused
              | lost =>
                  simp only [write]
                  exact ⟨rfl, rfl, rfl, .inr ⟨by simp [link], .closed closed⟩⟩
              | closed =>
                  simp only [write]
                  exact ⟨rfl, rfl, rfl, .inr ⟨by simp [link], .closed closed⟩⟩

theorem after_counted (config : ClientConfig) (history : List (Time × Input η)) :
    (after config history).documents.Counted :=
  run_preserves (P := fun c => c.documents.Counted) (fun _ held => by cases held)
    (fun counted deed => deed.counted counted) history

/-- A command that is refused leaves no trace, but for documents that could not be written of. -/
theorem refused_retracted (config : ClientConfig) (history : List (Time × Input η)) (now : Time)
    (command : Command η) (refused : command.Refused ((after config history).handle now command).1) :
    Retraction (after config history) command ((after config history).handle now command).2 := by
  cases command with
  | request method params timeout =>
      obtain ⟨failure, refused⟩ := refused
      exact sendRequest_refused (after_sound config history) refused
  | notify method params =>
      obtain ⟨failure, refused⟩ := refused
      exact sendNotification_refused refused
  | openDocument uri language text =>
      obtain ⟨failure, refused⟩ := refused
      exact openDocument_taken_back (after_counted config history) refused
  | changeDocument uri text base =>
      obtain ⟨failure, refused⟩ := refused
      exact changeDocument_stands refused
  | closeDocument uri =>
      obtain ⟨failure, refused⟩ := refused
      exact closeDocument_stands refused
  | _ => exact refused.elim

/-- A document is open when the writer is lost. -/
def unheard : List (Time × Input Unit) :=
  [(0, .command (.request Method.initializeRequest none none)),
    (1, .received (Framing.frame (Utf8.encode
      "\x7b\"jsonrpc\":\"2.0\",\"id\":1,\"result\":\x7b\"capabilities\":\x7b\x7d\x7d\x7d"))),
    (2, .command (.openDocument "a" "rust" "x")), (3, .writerLost)]

/-- A change of it is refused, and stands. -/
theorem refused_change_stands : ¬ ∀ (config : ClientConfig) (history : List (Time × Input Unit))
    (now : Time) (command : Command Unit),
    command.Refused ((after config history).handle now command).1 →
      ((after config history).handle now command).2.1.documents = (after config history).documents := by
  intro claim
  have refused : ((after .standard unheard).changeDocument "a" "y" none).1.toOption = none := by
    decide +kernel
  have stands : ((after .standard unheard).changeDocument "a" "y" none).2.1.documents ≠
      (after .standard unheard).documents := by
    decide +kernel
  have claimed := claim .standard unheard 4 (.changeDocument "a" "y" none)
  generalize after .standard unheard = c at refused stands claimed
  refine stands (claimed ?_)
  cases answer : (c.changeDocument "a" "y" none).1 with
  | error failure => exact ⟨failure, answer⟩
  | ok version =>
      rw [answer] at refused
      cases refused

end Connection
end ServerProbe
