import ServerProbe.Proofs.Connection.Filing
/-!
A server's copy of the documents. A server that replays the notifications about documents reads them
from their params; for each document they make up periods, from its opening to its closing.
-/

namespace ServerProbe

open Rpc (Message Notification)

/-- What a server is told of one document. -/
inductive Filing where
  | opened (document : Document)
  | changed (version : Int32) (text : String)
  | closed

namespace Filing

/-! ### Reading -/

def methods : List String := [Method.didOpen, Method.didChange, Method.didClose]

def integer? : Json → Option Int
  | .num (.int n) => some n
  | _ => none

def text? (key : String) (item : Json) : Option String := (item.get? key).bind Json.asString?

/-- A version is an integer of 32 bits; nothing else is one. -/
def version? (item : Json) : Option Int32 := do
  let n ← (item.get? "version").bind integer?
  if Int32.ofInt n = n then return Int32.ofInt n else none

def opening? (item : Json) : Option Filing := do
  return .opened ⟨← text? "languageId" item, ← text? "text" item, ← version? item⟩

/-- The last of the changes has the whole text. -/
def change? (params item : Json) : Option Filing := do
  let .arr changes ← params.get? "contentChanges" | none
  return .changed (← version? item) (← changes.getLast?.bind (text? "text"))

def ofItem? (method : String) (params item : Json) : Option Filing :=
  if method = Method.didOpen then opening? item
  else if method = Method.didChange then change? params item
  else if method = Method.didClose then some .closed
  else none

/-- The document that a message is about, and what it tells of it. -/
def read? : Message → Option (String × Filing)
  | .notification ⟨method, some params⟩ => do
    let item ← params.get? "textDocument"
    return (← text? "uri" item, ← ofItem? method params item)
  | _ => none

theorem keys_ordered :
    "languageId" < "uri" ∧ "text" < "uri" ∧ "contentChanges" < "textDocument" ∧
      ¬ "version" < "languageId" ∧ ¬ "version" < "uri" ∧ ¬ "text" < "languageId" := by
  decide +kernel

/-- The members of an item stand in the order of their keys. -/
theorem didOpen_eq (uri language text : String) (version : Int) :
    Payload.didOpen uri language version text = .obj [("textDocument", .obj [
      ("languageId", .str language), ("text", .str text), ("uri", .str uri),
      ("version", .int version)])] := by
  obtain ⟨language_uri, text_uri, -, version_language, version_uri, text_language⟩ := keys_ordered
  simp only [Payload.didOpen, Payload.object, Json.ofMembers, Json.ordered, List.foldl_cons,
    List.foldl_nil, Json.set, String.reduceBEq, Bool.false_eq_true, if_false, if_true, language_uri,
    text_uri, version_language, version_uri, text_language]

theorem didChange_eq (uri text : String) (version : Int) :
    Payload.didChange uri version text = .obj [
      ("contentChanges", .arr [.obj [("text", .str text)]]),
      ("textDocument", .obj [("uri", .str uri), ("version", .int version)])] := by
  obtain ⟨-, -, changes_item, -, version_uri, -⟩ := keys_ordered
  simp only [Payload.didChange, Payload.object, Json.ofMembers, Json.ordered, List.foldl_cons,
    List.foldl_nil, Json.set, String.reduceBEq, Bool.false_eq_true, if_false, if_true, changes_item,
    version_uri]

theorem version?_int {item : Json} {version : Int32}
    (told : item.get? "version" = some (.int version)) : version? item = some version := by
  simp only [version?, told, integer?, Json.int, Option.bind_eq_bind, Option.bind_some, Int32.ofInt_toInt,
    if_true, pure]

theorem read?_didOpen (uri language text : String) (version : Int32) :
    read? (Connection.notice Method.didOpen (Payload.didOpen uri language version text)) =
      some (uri, .opened ⟨language, text, version⟩) := by
  rw [didOpen_eq]
  exact congrArg (fun found : Option Int32 => (found.bind fun v =>
    some (Filing.opened ⟨language, text, v⟩)).bind fun told => some (uri, told)) (version?_int rfl)

theorem read?_didChange (uri text : String) (version : Int32) :
    read? (Connection.notice Method.didChange (Payload.didChange uri version text)) =
      some (uri, .changed version text) := by
  rw [didChange_eq]
  exact congrArg (fun found : Option Int32 => (found.bind fun v =>
    some (Filing.changed v text)).bind fun told => some (uri, told)) (version?_int rfl)

theorem read?_didClose (uri : String) :
    read? (Connection.notice Method.didClose (Payload.didClose uri)) = some (uri, .closed) := rfl

theorem read?_other {m : Message} (other : ∀ n, m = .notification n → n.method ∉ methods) :
    read? m = none := by
  cases m with
  | request r => rfl
  | response r => rfl
  | notification n =>
      obtain ⟨method, params⟩ := n
      have unnamed := other _ rfl
      simp only [methods, List.mem_cons, List.not_mem_nil, or_false, not_or] at unnamed
      obtain ⟨opens, changes, closes⟩ := unnamed
      cases params with
      | none => rfl
      | some params => simp [read?, ofItem?, opens, changes, closes]

/-! ### Replaying -/

/-- What a server keeps of a document once it has been told something. -/
def heard (held : Option Document) : Filing → Option Document
  | .opened document => some document
  | .changed version text => held.map fun d => { d with text, version }
  | .closed => none

def hear (replica : String → Option Document) (told : String × Filing) : String → Option Document :=
  Function.update replica told.1 (told.2.heard (replica told.1))

/-- The documents of a server that has replayed messages from the beginning. -/
def replay (said : List Message) : String → Option Document :=
  (said.filterMap read?).foldl hear fun _ => none

/-- What messages tell of one document. -/
def about (uri : String) (said : List Message) : List Filing :=
  (said.filterMap read?).filterMap fun told => if told.1 = uri then some told.2 else none

theorem replay_append (a b : List Message) :
    replay (a ++ b) = (b.filterMap read?).foldl hear (replay a) := by
  rw [replay, List.filterMap_append, List.foldl_append]
  rfl

theorem about_append (uri : String) (a b : List Message) :
    about uri (a ++ b) = about uri a ++ about uri b := by
  simp only [about, List.filterMap_append]

/-- Filings of one document are replayed on that one. -/
theorem hear_same (uri : String) (told : List Filing) (replica : String → Option Document) :
    (told.map (Prod.mk uri)).foldl hear replica =
      Function.update replica uri (told.foldl heard (replica uri)) := by
  induction told generalizing replica with
  | nil => exact (Function.update_eq_self uri replica).symm
  | cons f told ih =>
      rw [List.map_cons, List.foldl_cons, ih]
      simp only [hear, Function.update_self, Function.update_idem, List.foldl_cons]

theorem about_same {uri : String} {said : List Message} {told : List Filing}
    (reads : said.filterMap read? = told.map (Prod.mk uri)) : about uri said = told := by
  rw [about, reads, List.filterMap_map]
  have each : ((fun e : String × Filing => if e.1 = uri then some e.2 else none) ∘ Prod.mk uri) =
      some := by
    funext f
    simp
  rw [each, List.filterMap_some]

theorem about_apart {uri other : String} (apart : other ≠ uri) {said : List Message}
    {told : List Filing} (reads : said.filterMap read? = told.map (Prod.mk uri)) :
    about other said = [] := by
  rw [about, reads, List.filterMap_map]
  refine List.filterMap_eq_nil_iff.mpr fun f _ => ?_
  simp [apart.symm]

/-! ### What becomes of one document -/

/-- A document before and after, and what is told of it in between. -/
inductive Step : Option OpenDocument → List Filing → Option OpenDocument → Prop
  | kept {held : Option OpenDocument} : Step held [] held
  | again {d : OpenDocument} : Step (some d) [] (some { d with count := d.count + 1 })
  | opened (language text : String) :
      Step none [.opened ⟨language, text, 0⟩] (some ⟨⟨language, text, 0⟩, 1⟩)
  | changed {d : OpenDocument} (text : String) :
      Step (some d) [.changed (d.document.version + 1) text]
        (some { d with document := { d.document with text, version := d.document.version + 1 } })
  | released {d : OpenDocument} (many : 1 < d.count) :
      Step (some d) [] (some { d with count := d.count - 1 })
  | closed {d : OpenDocument} (last : d.count = 1) : Step (some d) [.closed] none

def documentOf (held : Option OpenDocument) : Option Document := held.map OpenDocument.document

def countOf (held : Option OpenDocument) : Nat := (held.map OpenDocument.count).getD 0

theorem Step.replayed {held kept : Option OpenDocument} {told : List Filing}
    (step : Step held told kept) : told.foldl heard (documentOf held) = documentOf kept := by
  cases step <;> rfl

/-- A document is opened on the server when its count rises from nothing. -/
theorem Step.opens {held kept : Option OpenDocument} {told : List Filing}
    (step : Step held told kept) (positive : ∀ d, held = some d → 0 < d.count) :
    (∃ d, .opened d ∈ told) ↔ countOf held = 0 ∧ countOf kept = 1 := by
  have open_already : ∀ d, held = some d → countOf held ≠ 0 := by
    rintro d rfl
    exact Nat.ne_of_gt (positive d rfl)
  constructor
  · rintro ⟨d, told⟩
    cases step with
    | opened language text => exact ⟨rfl, rfl⟩
    | changed text => cases List.mem_singleton.mp told
    | closed last => cases List.mem_singleton.mp told
    | _ => cases told
  · rintro ⟨zero, one⟩
    cases step with
    | kept => cases zero.symm.trans one
    | opened language text => exact ⟨_, List.mem_singleton.mpr rfl⟩
    | _ => exact absurd zero (open_already _ rfl)

/-- A document is closed on the server when its count falls to nothing. -/
theorem Step.closes {held kept : Option OpenDocument} {told : List Filing}
    (step : Step held told kept) : .closed ∈ told ↔ countOf held = 1 ∧ countOf kept = 0 := by
  constructor
  · intro told
    cases step with
    | closed last => exact ⟨last, rfl⟩
    | opened language text => cases List.mem_singleton.mp told
    | changed text => cases List.mem_singleton.mp told
    | _ => cases told
  · rintro ⟨one, zero⟩
    cases step with
    | closed last => exact List.mem_singleton.mpr rfl
    | kept => cases zero.symm.trans one
    | again => cases zero
    | opened language text => cases zero
    | changed text => cases zero.symm.trans one
    | released many => exact absurd one (Nat.ne_of_gt many)

/-! ### Periods -/

/-- A document from its opening on, with the texts it was changed to. -/
structure Period where
  language : String
  text : String
  edits : List String

namespace Period

/-- The notifications of a period: versions count up from nought without a gap, in 32 bits. -/
def filings (p : Period) : List Filing :=
  .opened ⟨p.language, p.text, 0⟩ :: p.edits.mapIdx fun i text => .changed (.ofNat (i + 1)) text

def document (p : Period) : Document := ⟨p.language, p.edits.getLastD p.text, .ofNat p.edits.length⟩

def edit (p : Period) (text : String) : Period := { p with edits := p.edits ++ [text] }

theorem filings_edit (p : Period) (text : String) :
    (p.edit text).filings = p.filings ++ [.changed (p.document.version + 1) text] := by
  simp only [edit, filings, document, List.mapIdx_concat, List.cons_append, Int32.ofNat_add]
  rfl

theorem document_edit (p : Period) (text : String) :
    (p.edit text).document = { p.document with text, version := p.document.version + 1 } := by
  simp [edit, document, Int32.ofNat_add]

end Period

/-- The filings of one document are those of closed periods, and of the present one if it is open. -/
def Serial (told : List Filing) (held : Option Document) : Prop :=
  ∃ closed : List Period, ∃ present : Option Period, held = present.map Period.document ∧
    told = closed.flatMap (fun p => p.filings ++ [.closed]) ++ (present.map Period.filings).getD []

theorem serial_nil : Serial [] none := ⟨[], none, rfl, rfl⟩

theorem Serial.step {past told : List Filing} {held kept : Option OpenDocument}
    (serial : Serial past (documentOf held)) (step : Step held told kept) :
    Serial (past ++ told) (documentOf kept) := by
  obtain ⟨closed, present, document, rfl⟩ := serial
  cases step with
  | kept => exact ⟨closed, present, document, List.append_nil _⟩
  | again => exact ⟨closed, present, document, List.append_nil _⟩
  | released many => exact ⟨closed, present, document, List.append_nil _⟩
  | opened language text =>
      obtain rfl : present = none := Option.map_eq_none_iff.mp document.symm
      refine ⟨closed, some ⟨language, text, []⟩, rfl, ?_⟩
      simp [Period.filings]
  | @changed d text =>
      obtain ⟨p, rfl, own⟩ := Option.map_eq_some_iff.mp document.symm
      refine ⟨closed, some (p.edit text), ?_, ?_⟩
      · simp only [documentOf, Option.map_some, Period.document_edit, own]
      · simp only [Option.map_some, Option.getD_some, Period.filings_edit, own, List.append_assoc]
  | @closed d last =>
      obtain ⟨p, rfl, own⟩ := Option.map_eq_some_iff.mp document.symm
      refine ⟨closed ++ [p], none, rfl, ?_⟩
      simp

end Filing

namespace DocumentStore

variable {s t : DocumentStore} {uri : String} {said : List Message}

theorem get?_eq (s : DocumentStore) (uri : String) : s.get? uri = Filing.documentOf (s.find? uri) := rfl

theorem count_eq (s : DocumentStore) (uri : String) : s.count uri = Filing.countOf (s.find? uri) := by
  unfold count Filing.countOf
  cases s.find? uri <;> rfl

/-- A move is a step of its own document, and no other is touched or told of. -/
theorem Move.steps (move : s.Move uri t said) : ∃ told : List Filing,
    said.filterMap Filing.read? = told.map (Prod.mk uri) ∧
      Filing.Step (s.find? uri) told (t.find? uri) ∧ ∀ other ≠ uri, t.find? other = s.find? other := by
  cases move with
  | kept => exact ⟨[], rfl, .kept, fun _ _ => rfl⟩
  | again held =>
      refine ⟨[], rfl, ?_, fun other apart => ?_⟩
      · rw [find?_update held, Function.update_self, held]
        exact .again
      · rw [find?_update held, Function.update_of_ne apart]
  | opened language text absent =>
      refine ⟨[.opened ⟨language, text, 0⟩], ?_, ?_, fun other apart => ?_⟩
      · exact List.filterMap_cons_some (Filing.read?_didOpen uri language text 0)
      · rw [find?_append absent, Function.update_self, absent]
        exact .opened language text
      · rw [find?_append absent, Function.update_of_ne apart]
  | @changed d version text held next =>
      subst next
      refine ⟨[.changed (d.document.version + 1) text], ?_, ?_, fun other apart => ?_⟩
      · simp only [List.filterMap_cons, Filing.read?_didChange, List.filterMap_nil, List.map_cons,
          List.map_nil]
      · rw [find?_update held, Function.update_self, held]
        exact .changed text
      · rw [find?_update held, Function.update_of_ne apart]
  | released held many =>
      refine ⟨[], rfl, ?_, fun other apart => ?_⟩
      · rw [find?_update held, Function.update_self, held]
        exact .released many
      · rw [find?_update held, Function.update_of_ne apart]
  | closed held last =>
      refine ⟨[.closed], ?_, ?_, fun other apart => ?_⟩
      · simp only [List.filterMap_cons, Filing.read?_didClose, List.filterMap_nil, List.map_cons,
          List.map_nil]
      · rw [find?_remove, Function.update_self, held]
        exact .closed last
      · rw [find?_remove, Function.update_of_ne apart]

/-- A server that replays what it was told holds the documents that are kept, and what it was told of
each of them makes up periods. -/
structure Mirrored (s : DocumentStore) (said : List Message) : Prop where
  replica : Filing.replay said = s.get?
  serial : ∀ uri, Filing.Serial (Filing.about uri said) (s.get? uri)

theorem empty_mirrored : empty.Mirrored [] := ⟨rfl, fun _ => Filing.serial_nil⟩

theorem Mirrored.aside {more : List Message} (h : s.Mirrored said)
    (other : more.filterMap Filing.read? = []) : s.Mirrored (said ++ more) := by
  refine ⟨?_, fun uri => ?_⟩
  · rw [Filing.replay_append, other]
    exact h.replica
  · have nothing : Filing.about uri more = [] := by
      rw [Filing.about, other]
      rfl
    rw [Filing.about_append, nothing, List.append_nil]
    exact h.serial uri

theorem Mirrored.move {more : List Message} (h : s.Mirrored said) (move : s.Move uri t more) :
    t.Mirrored (said ++ more) := by
  obtain ⟨told, reads, step, others⟩ := move.steps
  refine ⟨?_, fun other => ?_⟩
  · rw [Filing.replay_append, reads, Filing.hear_same, h.replica]
    funext other
    by_cases same : other = uri
    · subst same
      rw [Function.update_self, get?_eq, get?_eq, step.replayed]
    · rw [Function.update_of_ne same, get?_eq, get?_eq, others other same]
  · rw [Filing.about_append]
    by_cases same : other = uri
    · subst same
      rw [Filing.about_same reads]
      exact (h.serial other).step step
    · rw [Filing.about_apart same reads, List.append_nil, get?_eq, others other same]
      exact h.serial other

end DocumentStore
end ServerProbe
