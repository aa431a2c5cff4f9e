import ServerProbe.Proofs.Connection.Output
import ServerProbe.Proofs.Document.Store
/-!
What a connection does with its documents on a command: each case once, with what is kept afterwards
and what the server is told.
-/

namespace ServerProbe

open Rpc (Message)

namespace DocumentStore

variable {s t : DocumentStore} {uri : String} {d : OpenDocument}

theorem Counted.find? (counted : s.Counted) (held : s.find? uri = some d) : 0 < d.count :=
  counted _ (mem_of_findIn held)

theorem Counted.remove (counted : s.Counted) (uri : String) : (s.remove uri).Counted := by
  intro e held
  exact counted e (List.mem_filter.mp held).1

theorem Counted.update (counted : s.Counted) (uri : String) (d : OpenDocument)
    (positive : 0 < d.count) : (s.update uri d).Counted := by
  intro e held
  obtain ⟨old, there, rfl⟩ := List.mem_map.mp held
  split
  · exact positive
  · exact counted old there

theorem Counted.append (counted : s.Counted) (uri : String) (d : OpenDocument)
    (positive : 0 < d.count) : Counted ⟨s.entries ++ [(uri, d)]⟩ := by
  intro e held
  rcases List.mem_append.mp held with old | new
  · exact counted e old
  · rw [List.mem_singleton.mp new]
    exact positive

theorem Counted.register (counted : s.Counted) (uri language text : String) :
    (s.register uri language text).2.Counted := by
  cases found : s.find? uri with
  | none =>
      rw [register_first found]
      exact counted.append uri _ Nat.zero_lt_one
  | some d =>
      rw [register_again found]
      exact counted.update uri _ (Nat.succ_pos d.count)

theorem Counted.change (counted : s.Counted) {text : String} {base : Option Int32} {version : Int32}
    (h : s.change uri text base = .ok (version, t)) : t.Counted := by
  obtain ⟨d, held, -, rfl⟩ := change_eq_ok h
  have positive : 0 < d.count := counted.find? held
  exact counted.update uri _ positive

theorem Counted.close (counted : s.Counted) {last : Bool} (h : s.close uri = .ok (last, t)) :
    t.Counted := by
  obtain ⟨d, -, ⟨-, -, rfl⟩ | ⟨-, many, rfl⟩⟩ := close_eq_ok h
  · exact counted.remove uri
  · exact counted.update uri _ (Nat.sub_pos_of_lt many)

/-- What becomes of one document, and what a server is told of it. -/
inductive Move (s : DocumentStore) (uri : String) : DocumentStore → List Message → Prop
  | kept : Move s uri s []
  | again {d : OpenDocument} (held : s.find? uri = some d) :
      Move s uri (s.update uri { d with count := d.count + 1 }) []
  | opened (language text : String) (absent : s.find? uri = none) :
      Move s uri ⟨s.entries ++ [(uri, ⟨⟨language, text, 0⟩, 1⟩)]⟩
        [Connection.notice Method.didOpen (Payload.didOpen uri language 0 text)]
  | changed {d : OpenDocument} {version : Int32} (text : String) (held : s.find? uri = some d)
      (next : version = d.document.version + 1) :
      Move s uri (s.update uri { d with document := { d.document with text, version } })
        [Connection.notice Method.didChange (Payload.didChange uri version text)]
  | released {d : OpenDocument} (held : s.find? uri = some d) (many : 1 < d.count) :
      Move s uri (s.update uri { d with count := d.count - 1 }) []
  | closed {d : OpenDocument} (held : s.find? uri = some d) (last : d.count = 1) :
      Move s uri (s.remove uri) [Connection.notice Method.didClose (Payload.didClose uri)]

end DocumentStore

/-- The document that a command is about. -/
def Command.uri? {η : Type} : Command η → Option String
  | .openDocument uri _ _ | .changeDocument uri _ _ | .closeDocument uri => some uri
  | _ => none

namespace Connection

variable {η : Type} {c : Connection η} {uri : String}

/-- What a message comes to on the link. -/
def told (c : Connection η) (m : Message) : List (Output η) := if c.link = .up then [.wrote m] else []

theorem write_up (up : c.link = .up) (m : Message) : c.write m = .ok [.wrote m] := by
  simp only [write, up]

theorem write_down (down : c.link ≠ .up) (m : Message) : ∃ failure, c.write m = .error failure := by
  unfold write
  split
  · exact absurd ‹_› down
  · exact ⟨_, rfl⟩
  · exact ⟨_, rfl⟩

theorem checkNotification_of_allowed {method : String}
    (allowed : Session.notificationAllowed c.state method = true) :
    c.session.checkNotification method = .ok () := if_pos allowed

theorem checkNotification_of_forbidden {method : String}
    (forbidden : ¬ Session.notificationAllowed c.state method = true) :
    ∃ failure, c.session.checkNotification method = .error failure := ⟨_, if_neg forbidden⟩

/-! ### Opening -/

theorem openDocument_again {d : OpenDocument} (held : c.documents.find? uri = some d)
    (positive : 0 < d.count) (language text : String) :
    (c.openDocument uri language text).2 =
      ({ c with documents := c.documents.update uri { d with count := d.count + 1 } }, []) := by
  have known : (c.documents.count uri == 0) = false := by
    rw [DocumentStore.count_of_find? held, beq_eq_false_iff_ne]
    omega
  simp only [openDocument, known, Bool.false_eq_true, if_false, DocumentStore.register_again held]

theorem openDocument_refused (absent : c.documents.find? uri = none)
    (forbidden : ¬ Session.notificationAllowed c.state Method.didOpen = true) (language text : String) :
    (c.openDocument uri language text).2 = (c, []) := by
  obtain ⟨failure, refused⟩ := checkNotification_of_forbidden forbidden
  simp only [openDocument, DocumentStore.count_of_absent absent, beq_self_eq_true, if_true, refused]

theorem openDocument_first (absent : c.documents.find? uri = none)
    (allowed : Session.notificationAllowed c.state Method.didOpen = true) (language text : String) :
    (c.openDocument uri language text).2 =
      if c.link = .up then
        ({ c with documents := ⟨c.documents.entries ++ [(uri, ⟨⟨language, text, 0⟩, 1⟩)]⟩ },
          [.wrote (notice Method.didOpen (Payload.didOpen uri language 0 text))])
      else
        ({ c with documents :=
            DocumentStore.remove ⟨c.documents.entries ++ [(uri, ⟨⟨language, text, 0⟩, 1⟩)]⟩ uri }, []) := by
  simp only [openDocument, DocumentStore.count_of_absent absent, beq_self_eq_true, if_true,
    checkNotification_of_allowed allowed, DocumentStore.register_first absent, Int32.toInt_zero]
  by_cases up : c.link = .up
  · simp only [write_up up, up, if_true]
  · obtain ⟨failure, failed⟩ := write_down up (notice Method.didOpen (Payload.didOpen uri language 0 text))
    simp only [failed, up, if_false]

/-! ### Changing -/

theorem changeDocument_told {text : String} {base : Option Int32} {version : Int32} {s : DocumentStore}
    (changed : c.documents.change uri text base = .ok (version, s))
    (allowed : Session.notificationAllowed c.state Method.didChange = true) :
    (c.changeDocument uri text base).2 =
      ({ c with documents := s }, c.told (notice Method.didChange (Payload.didChange uri version text))) := by
  obtain ⟨d, held, -⟩ := DocumentStore.change_eq_ok changed
  simp only [changeDocument, DocumentStore.get?, held, Option.map_some, Option.isNone_some,
    Bool.false_eq_true, if_false, checkNotification_of_allowed allowed, changed, told]
  by_cases up : c.link = .up
  · simp only [write, up, if_true]
  · obtain ⟨failure, failed⟩ := write_down (c := { c with documents := s }) up
      (notice Method.didChange (Payload.didChange uri version text))
    simp only [failed, up, if_false]

theorem changeDocument_refused {text : String} {base : Option Int32}
    (h : ¬ (Session.notificationAllowed c.state Method.didChange = true ∧
      ∃ version s, c.documents.change uri text base = .ok (version, s))) :
    (c.changeDocument uri text base).2 = (c, []) := by
  unfold changeDocument
  split
  · rfl
  · split
    · rfl
    · rename_i allowed
      split
      · rfl
      · rename_i version s changed
        exact absurd ⟨checkNotification_eq_ok allowed, version, s, changed⟩ h

/-! ### Closing -/

theorem closeDocument_released {s : DocumentStore} (closed : c.documents.close uri = .ok (false, s)) :
    (c.closeDocument uri).2 = ({ c with documents := s }, []) := by
  obtain ⟨d, held, ⟨same, -⟩ | ⟨-, many, -⟩⟩ := DocumentStore.close_eq_ok closed
  · cases same
  · have others : (c.documents.count uri == 1) = false := by
      rw [DocumentStore.count_of_find? held, beq_eq_false_iff_ne]
      omega
    simp only [closeDocument, closed, others, Bool.false_eq_true, if_false]

theorem closeDocument_last {s : DocumentStore} (closed : c.documents.close uri = .ok (true, s))
    (allowed : Session.notificationAllowed c.state Method.didClose = true) :
    (c.closeDocument uri).2 =
      ({ c with documents := s }, c.told (notice Method.didClose (Payload.didClose uri))) := by
  have gate : (if c.documents.count uri == 1 then c.session.checkNotification Method.didClose
      else .ok ()) = .ok () := by
    rw [checkNotification_of_allowed allowed, ite_self]
  simp only [closeDocument, closed, gate, told]
  by_cases up : c.link = .up
  · simp only [write, up, if_true]
  · obtain ⟨failure, failed⟩ := write_down (c := { c with documents := s }) up
      (notice Method.didClose (Payload.didClose uri))
    simp only [failed, up, if_false]

theorem closeDocument_forbidden {d : OpenDocument} (held : c.documents.find? uri = some d)
    (last : d.count = 1) (forbidden : ¬ Session.notificationAllowed c.state Method.didClose = true) :
    (c.closeDocument uri).2 = (c, []) := by
  obtain ⟨failure, refused⟩ := checkNotification_of_forbidden forbidden
  have one : (c.documents.count uri == 1) = true := by
    rw [DocumentStore.count_of_find? held, last, beq_self_eq_true]
  have closed : c.documents.close uri = .ok (true, c.documents.remove uri) := by
    simp only [DocumentStore.close, held, last, Nat.le_refl, if_true]
  simp only [closeDocument, closed, one, if_true, refused]

theorem closeDocument_absent (absent : c.documents.find? uri = none) :
    (c.closeDocument uri).2 = (c, []) := by
  simp only [closeDocument, DocumentStore.close, absent]

/-! ### Every command -/

theorem counted_of_filing (counted : c.documents.Counted) {now : Time} {command : Command η}
    (filing : command.IsFiling) : (c.handle now command).2.1.documents.Counted := by
  cases command with
  | openDocument uri language text =>
      change ((c.openDocument uri language text).2).1.documents.Counted
      cases found : c.documents.find? uri with
      | some d =>
          rw [openDocument_again found (counted.find? found)]
          exact counted.update uri _ (Nat.succ_pos d.count)
      | none =>
          by_cases allowed : Session.notificationAllowed c.state Method.didOpen = true
          · rw [openDocument_first found allowed]
            have more := counted.append uri ⟨⟨language, text, 0⟩, 1⟩ Nat.zero_lt_one
            split
            · exact more
            · exact more.remove uri
          · rw [openDocument_refused found allowed]
            exact counted
  | changeDocument uri text base =>
      change ((c.changeDocument uri text base).2).1.documents.Counted
      by_cases h : Session.notificationAllowed c.state Method.didChange = true ∧
        ∃ version s, c.documents.change uri text base = .ok (version, s)
      · obtain ⟨allowed, version, s, changed⟩ := h
        rw [changeDocument_told changed allowed]
        exact counted.change changed
      · rw [changeDocument_refused h]
        exact counted
  | closeDocument uri =>
      change ((c.closeDocument uri).2).1.documents.Counted
      unfold closeDocument
      dsimp only
      split
      · exact counted
      · exact counted
      · rename_i closed _
        exact counted.close closed
      · rename_i closed _
        split
        · exact counted.close closed
        · exact counted.close closed
  | _ => exact filing.elim

end Connection
end ServerProbe
