import ServerProbe.Framing.Stream
import ServerProbe.Proofs.Connection.Moment
import ServerProbe.Proofs.Document.Replica
/-!
The server's copy of the documents over a whole history. As long as every write succeeds and nothing
but the operations on documents tells of them, a server that replays what it is told holds the
documents that the connection keeps.
-/

namespace ServerProbe

open Rpc (Message)

/-- A notification about documents that does not come from the operations on them. -/
def Input.Forges {η : Type} : Input η → Prop
  | .command (.notify method _) => method ∈ Filing.methods
  | _ => False

instance {η : Type} (i : Input η) : Decidable i.Forges := by
  unfold Input.Forges
  split
  · infer_instance
  · infer_instance

namespace Connection

variable {η : Type}

/-! ### Operations on documents -/

section Operations

variable {c : Connection η} {now : Time} {uri : String}

/-- The connection with a link that takes what is written. -/
def heeded (c : Connection η) : Connection η := { c with link := .up }

theorem heeded_link (c : Connection η) : c.heeded.link = .up := rfl

theorem openDocument_moves (counted : c.documents.Counted) (language text : String)
    (taken : c.link = .up ∨ sent (c.heeded.openDocument uri language text).2.2 = []) :
    c.documents.Move uri (c.openDocument uri language text).2.1.documents
      (sent (c.openDocument uri language text).2.2) := by
  cases found : c.documents.find? uri with
  | some d =>
      rw [openDocument_again found (counted.find? found)]
      exact .again found
  | none =>
      by_cases allowed : Session.notificationAllowed c.state Method.didOpen = true
      · rcases taken with up | unheard
        · rw [openDocument_first found allowed, if_pos up]
          exact .opened language text found
        · rw [openDocument_first (c := c.heeded) found allowed, if_pos c.heeded_link] at unheard
          cases unheard
      · rw [openDocument_refused found allowed]
        exact .kept

theorem changeDocument_moves (text : String) (base : Option Int32)
    (taken : c.link = .up ∨ sent (c.heeded.changeDocument uri text base).2.2 = []) :
    c.documents.Move uri (c.changeDocument uri text base).2.1.documents
      (sent (c.changeDocument uri text base).2.2) := by
  by_cases h : Session.notificationAllowed c.state Method.didChange = true ∧
    ∃ version s, c.documents.change uri text base = .ok (version, s)
  · obtain ⟨allowed, version, s, changed⟩ := h
    obtain ⟨d, held, next, rfl⟩ := DocumentStore.change_eq_ok changed
    rcases taken with up | unheard
    · rw [changeDocument_told changed allowed, told, if_pos up]
      exact .changed text held next
    · rw [changeDocument_told (c := c.heeded) changed allowed, told, if_pos c.heeded_link] at unheard
      cases unheard
  · rw [changeDocument_refused h]
    exact .kept

theorem closeDocument_moves (counted : c.documents.Counted)
    (taken : c.link = .up ∨ sent (c.heeded.closeDocument uri).2.2 = []) :
    c.documents.Move uri (c.closeDocument uri).2.1.documents (sent (c.closeDocument uri).2.2) := by
  cases found : c.documents.find? uri with
  | none =>
      rw [closeDocument_absent found]
      exact .kept
  | some d =>
      by_cases last : d.count = 1
      · have closed : c.documents.close uri = .ok (true, c.documents.remove uri) := by
          simp only [DocumentStore.close, found, last, Nat.le_refl, if_true]
        by_cases allowed : Session.notificationAllowed c.state Method.didClose = true
        · rcases taken with up | unheard
          · rw [closeDocument_last closed allowed, told, if_pos up]
            exact .closed found last
          · rw [closeDocument_last (c := c.heeded) closed allowed, told, if_pos c.heeded_link] at unheard
            cases unheard
        · rw [closeDocument_forbidden found last allowed]
          exact .kept
      · have many : 1 < d.count := Nat.lt_of_le_of_ne (counted.find? found) (Ne.symm last)
        have released : c.documents.close uri =
            .ok (false, c.documents.update uri { d with count := d.count - 1 }) := by
          simp only [DocumentStore.close, found, Nat.not_le_of_lt many, if_false]
        rw [closeDocument_released released]
        exact .released found many

/-- Unless a write fails, an operation on a document moves that document and tells the server so. -/
theorem filing_moves (counted : c.documents.Counted) {command : Command η}
    (filing : command.IsFiling)
    (taken : c.link = .up ∨ sent (c.heeded.handle now command).2.2 = []) :
    ∃ uri, command.uri? = some uri ∧ c.documents.Move uri (c.handle now command).2.1.documents
      (sent (c.handle now command).2.2) := by
  cases command with
  | openDocument uri language text => exact ⟨uri, rfl, openDocument_moves counted language text taken⟩
  | changeDocument uri text base => exact ⟨uri, rfl, changeDocument_moves text base taken⟩
  | closeDocument uri => exact ⟨uri, rfl, closeDocument_moves counted taken⟩
  | _ => exact filing.elim

end Operations

theorem Deed.documents_eq {now : Time} {c d : Connection η} {act : Act η} {out : List (Output η)}
    (deed : Deed now c act d out)
    (other : ∀ command : Command η, command.IsFiling → act ≠ .input (.command command)) :
    d.documents = c.documents := by
  cases deed with
  | idle alike unheard => exact alike.documents
  | filed filing turn told => exact absurd rfl (other _ filing)
  | lapsed taken lapse => exact lapse.documents
  | _ => rfl

theorem exit_not_filing : Method.exit ∉ Filing.methods := by decide

theorem cancelRequest_not_filing : Method.cancelRequest ∉ Filing.methods := by decide

/-- What does not deal with documents does not tell of them, unless somebody makes it up. -/
theorem Deed.untold {now : Time} {c d : Connection η} {act : Act η} {out : List (Output η)}
    (deed : Deed now c act d out)
    (other : ∀ command : Command η, command.IsFiling → act ≠ .input (.command command))
    (honest : ∀ i, act = .input i → ¬ i.Forges) : (sent out).filterMap Filing.read? = [] := by
  refine List.filterMap_eq_nil_iff.mpr fun x held => Filing.read?_other fun n same => ?_
  subst same
  cases deed.said _ held with
  | noted allowed => exact honest _ rfl
  | left => exact exit_not_filing
  | recalled => exact cancelRequest_not_filing
  | filed filing file => exact absurd rfl (other _ filing)
  | concluded taken handshake usable => decide

/-! ### Moments -/

/-- What a moment does to the documents. -/
inductive Moment.Keeps (m : Moment η) : Prop
  | moves {command : Command η} {uri : String} (own : m.act = .input (.command command))
      (about : command.uri? = some uri)
      (move : m.before.documents.Move uri m.next.documents (sent m.out))
  | rests (documents : m.next.documents = m.before.documents)
      (other : (sent m.out).filterMap Filing.read? = [])

theorem Moment.keeps (m : Moment η) (counted : m.before.documents.Counted) (heard : ¬ m.Stifled)
    (honest : ∀ i, m.act = .input i → ¬ i.Forges) : m.Keeps := by
  by_cases filing : ∃ command : Command η, command.IsFiling ∧ m.act = .input (.command command)
  · obtain ⟨command, filing, own⟩ := filing
    have taken : m.before.link = .up ∨
        sent (m.before.heeded.handle m.time command).2.2 = [] := by
      by_contra failed
      obtain ⟨down, unheard⟩ := not_or.mp failed
      refine heard ⟨down, ?_⟩
      rw [own]
      exact unheard
    obtain ⟨uri, about, move⟩ := filing_moves counted filing taken
    refine .moves own about ?_
    rw [Moment.next, Moment.out, own]
    exact move
  · have other : ∀ command : Command η, command.IsFiling → m.act ≠ .input (.command command) :=
      fun command held same => filing ⟨command, held, same⟩
    exact .rests (m.dealt.documents_eq other) (m.dealt.untold other honest)

theorem counted_at {config : ClientConfig} {history : List (Time × Input η)} {m : Moment η}
    (held : m ∈ past config history) : m.before.documents.Counted := by
  obtain ⟨early, late, split⟩ := List.append_of_mem held
  refine past_at (P := fun c _ => c.documents.Counted) (fun e none => (by cases none)) ?_ split
  exact fun n _ _ counted => n.dealt.counted counted

theorem Moment.Keeps.steps {m : Moment η} (keeps : m.Keeps) (uri : String) :
    Filing.Step (m.before.documents.find? uri) (Filing.about uri (sent m.out))
      (m.next.documents.find? uri) := by
  cases keeps with
  | @moves command other own about move =>
      obtain ⟨told, reads, step, others⟩ := move.steps
      by_cases same : uri = other
      · subst same
        rwa [Filing.about_same reads]
      · rw [Filing.about_apart same reads, others uri same]
        exact .kept
  | rests documents other =>
      rw [documents, Filing.about, other]
      exact .kept

theorem Moment.Keeps.apart {m : Moment η} (keeps : m.Keeps) {uri : String}
    (other : ∀ command, m.act = .input (.command command) → command.uri? ≠ some uri) :
    m.next.documents.find? uri = m.before.documents.find? uri ∧
      Filing.about uri (sent m.out) = [] := by
  cases keeps with
  | @moves command own_uri own about move =>
      obtain ⟨told, reads, -, others⟩ := move.steps
      have apart : uri ≠ own_uri := by
        rintro rfl
        exact other command own about
      exact ⟨others uri apart, Filing.about_apart apart reads⟩
  | rests documents silent =>
      rw [documents, Filing.about, silent]
      exact ⟨rfl, rfl⟩

/-! ### The mirror -/

structure Mirrors (config : ClientConfig) (history : List (Time × Input η)) : Prop where
  /-- A server that replays what has been written holds the documents that are kept. -/
  replica : Filing.replay (sent (outputs config history)) = (after config history).documents.get?
  /-- What is written of each document makes up periods, the last of which is open if it is kept. -/
  serial : ∀ uri, Filing.Serial (Filing.about uri (sent (outputs config history)))
    ((after config history).documents.get? uri)
  opens : ∀ m ∈ past config history, ∀ uri, (∃ d, .opened d ∈ Filing.about uri (sent m.out)) ↔
    m.before.documents.count uri = 0 ∧ m.next.documents.count uri = 1
  closes : ∀ m ∈ past config history, ∀ uri, .closed ∈ Filing.about uri (sent m.out) ↔
    m.before.documents.count uri = 1 ∧ m.next.documents.count uri = 0
  /-- Only an operation on a document touches it or tells of it. -/
  apart : ∀ m ∈ past config history, ∀ uri,
    (∀ command, m.act = .input (.command command) → command.uri? ≠ some uri) →
    m.next.documents.find? uri = m.before.documents.find? uri ∧ Filing.about uri (sent m.out) = []

theorem mirrors (config : ClientConfig) (history : List (Time × Input η))
    (honest : ∀ e ∈ history, ¬ e.2.Forges) (heard : Unfailing config history) :
    Mirrors config history := by
  have keeps : ∀ m ∈ past config history, m.Keeps := by
    intro m held
    refine m.keeps (counted_at held) (heard m held) fun i own => ?_
    exact honest _ (moments_input held own)
  have mirrored : (after config history).documents.Mirrored (sent (outputs config history)) := by
    rw [← written_past]
    refine past_after (P := fun c ms => c.documents.Mirrored (sent (written ms)))
      DocumentStore.empty_mirrored ?_
    intro m held ms mirrored
    rw [written_append, written_singleton, sent_append]
    cases keeps m held with
    | moves own about move => exact mirrored.move move
    | rests documents other =>
        rw [documents]
        exact mirrored.aside other
  refine ⟨mirrored.replica, mirrored.serial, ?_, ?_, ?_⟩
  · intro m held uri
    rw [DocumentStore.count_eq, DocumentStore.count_eq]
    refine ((keeps m held).steps uri).opens fun d found => ?_
    exact (counted_at held).find? found
  · intro m held uri
    rw [DocumentStore.count_eq, DocumentStore.count_eq]
    exact ((keeps m held).steps uri).closes
  · intro m held uri other
    exact (keeps m held).apart other

/-- A document is opened, changed, closed and opened again after the handshake. -/
def reopening : List (Time × Input Unit) :=
  [(0, .command (.request Method.initializeRequest none none)),
    (1, .received (Framing.frame (Utf8.encode
      "\x7b\"jsonrpc\":\"2.0\",\"id\":1,\"result\":\x7b\"capabilities\":\x7b\x7d\x7d\x7d"))),
    (2, .command (.openDocument "a" "rust" "x")),
    (3, .command (.changeDocument "a" "y" none)),
    (4, .command (.closeDocument "a")),
    (5, .command (.openDocument "a" "rust" "z"))]

theorem mirrors_reopening : (∀ e ∈ reopening, ¬ e.2.Forges) ∧ Unfailing .standard reopening ∧
    Filing.replay (sent (outputs .standard reopening)) "a" = some ⟨"rust", "z", 0⟩ := by
  have honest : ∀ e ∈ reopening, ¬ e.2.Forges := by decide
  have heard : Unfailing .standard reopening := by decide +kernel
  have held : (after .standard reopening).documents.get? "a" = some ⟨"rust", "z", 0⟩ := by
    decide +kernel
  refine ⟨honest, heard, ?_⟩
  rw [(mirrors .standard reopening honest heard).replica]
  exact held

end Connection
end ServerProbe
