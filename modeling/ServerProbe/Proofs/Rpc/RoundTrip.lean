import ServerProbe.Proofs.Rpc.Envelope
/-!
Messages as documents and back. The messages that documents are read as are those that are read back
from their own envelopes, and no two messages have one envelope.
-/

namespace ServerProbe.Rpc

/-! ### Normal form -/

/-- Params that are left out, an object or an array. -/
inductive Structured : Option Json → Prop
  | absent : Structured none
  | object (ms : List (String × Json)) : Structured (some (.obj ms))
  | array (vs : List Json) : Structured (some (.arr vs))

/-- An id that is a text or fits 64 bits. -/
def Id.Fits : Id → Prop
  | .number n => Long n
  | .text _ => True

/-- A code that fits 64 bits, and data that is not null. -/
structure ErrorObject.Normal (e : ErrorObject) : Prop where
  fits : Long e.code
  data : e.data ≠ some .null

/-- A message in the form in which messages are read. -/
def Message.Normal : Message → Prop
  | .request r => r.id.Fits ∧ Structured r.params
  | .notification n => Structured n.params
  | .response ⟨id, .ok _⟩ => id.Fits
  | .response ⟨id, .error e⟩ => id.Fits ∧ e.Normal

theorem idForm_iff {v : Json} {id : Id} : IdForm v id ↔ v = id.toJson ∧ id.Fits := by
  constructor
  · intro form
    cases form with
    | text s => exact ⟨rfl, trivial⟩
    | number long => exact ⟨rfl, long⟩
  · rintro ⟨rfl, fits⟩
    cases id with
    | number n => exact .number fits
    | text s => exact .text s

theorem ParamsForm.structured {found params : Option Json} (form : ParamsForm found params) :
    Structured params := by
  cases form with
  | absent => exact .absent
  | null => exact .absent
  | object ms => exact .object ms
  | array vs => exact .array vs

theorem Structured.form {params : Option Json} (h : Structured params) : ParamsForm params params := by
  cases h with
  | absent => exact .absent
  | object ms => exact .object ms
  | array vs => exact .array vs

theorem dataOf_eq_self {data : Option Json} (present : data ≠ some .null) : dataOf data = data := by
  cases data with
  | none => rfl
  | some v =>
      cases v with
      | null => exact absurd rfl present
      | _ => rfl

/-! ### What is read is normal -/

section Visit

/-- The documents that a record is read from, in either form. -/
def parts : Json → List Json
  | .obj ms => ms.map Prod.snd
  | .arr vs => vs
  | _ => []

variable {σ : Type} {r : RecordShape} {put : σ → String → Json → Json.Shaped σ} {P : σ → Prop} {s t : σ}

theorem visitMembers_preserves {ms : List (String × Json)}
    (keeps : ∀ s name v t, (name, v) ∈ ms → P s → put s name v = .ok t → P t) (start : P s)
    (visited : r.visitMembers put s ms = .ok t) : P t := by
  induction ms generalizing s with
  | nil => exact Except.ok.inj visited ▸ start
  | cons m ms ih =>
      have others := fun s name v t held => keeps s name v t (List.mem_cons_of_mem m held)
      rw [RecordShape.visitMembers] at visited
      split at visited
      · split at visited
        · rename_i mid read
          exact ih others (keeps _ _ _ _ List.mem_cons_self start read) visited
        · cases visited
      · split at visited
        · cases visited
        · exact ih others start visited

theorem visitItems_preserves {total index : Nat} {fields : List (String × Bool)} {vs : List Json}
    (keeps : ∀ s name v t, v ∈ vs → P s → put s name v = .ok t → P t) (start : P s)
    (visited : r.visitItems put total index s fields vs = .ok t) : P t := by
  induction fields generalizing index s vs with
  | nil =>
      rw [RecordShape.visitItems] at visited
      split at visited
      · exact Except.ok.inj visited ▸ start
      · cases visited
  | cons field fields ih =>
      cases vs with
      | nil =>
          rw [RecordShape.visitItems] at visited
          split at visited
          · exact ih keeps start visited
          · cases visited
      | cons v vs =>
          obtain ⟨mid, read, rest⟩ := visitItems_cons.mp visited
          have others := fun s name w t held => keeps s name w t (List.mem_cons_of_mem v held)
          exact ih others (keeps _ _ _ _ List.mem_cons_self start read) rest

/-- What each member keeps true of the fields is true of them in the end. -/
theorem visit_preserves {v : Json} (keeps : ∀ s name u t, u ∈ parts v → P s → put s name u = .ok t → P t)
    (start : P s) (visited : r.visit put s v = .ok t) : P t := by
  cases v with
  | obj ms =>
      have held := fun s name u t (here : (name, u) ∈ ms) => keeps s name u t (List.mem_map_of_mem here)
      exact visitMembers_preserves held start visited
  | arr vs => exact visitItems_preserves keeps start visited
  | _ => cases visited

end Visit

/-- Fields that are fit for a normal error. -/
structure ErrorFields.Sound (e : ErrorFields) : Prop where
  fits : ∀ code, e.code = some code → Long code
  data : e.data ≠ some .null

theorem ErrorFields.Sound.put {e f : ErrorFields} {name : String} {v : Json} (h : e.Sound)
    (read : e.put name v = .ok f) : f.Sound := by
  unfold ErrorFields.put at read
  split at read
  · obtain ⟨n, whole, rfl⟩ := map_eq_ok.mp read
    exact ⟨fun code same => Option.some.inj same ▸ (toI64_eq_ok.mp whole).2, h.data⟩
  · obtain ⟨s, -, rfl⟩ := map_eq_ok.mp read
    exact ⟨h.fits, h.data⟩
  · obtain rfl := Except.ok.inj read
    refine ⟨h.fits, ?_⟩
    cases v <;> simp [Json.isNull]

theorem ErrorObject.normal_of_ofJson {v : Json} {e : ErrorObject} (read : ofJson v = .ok e) :
    e.Normal := by
  have start : ErrorFields.Sound ⟨none, none, none⟩ := ⟨fun _ h => (by cases h), fun h => (by cases h)⟩
  have sound : ErrorFields.Sound ⟨some e.code, some e.message, e.data⟩ :=
    visit_preserves (fun _ _ _ _ _ h => h.put) start (ofJson_eq_ok.mp read)
  exact ⟨sound.fits _ rfl, sound.data⟩

theorem Message.normal_of_ofJson {v : Json} {m : Message} (read : ofJson v = .ok m) : m.Normal := by
  cases v with
  | obj ms =>
      obtain ⟨-, id, id_read, method, -, rest⟩ := ofJson_obj.mp read
      have fits : ∀ i, id = some i → i.Fits := by
        rintro i rfl
        obtain ⟨w, -, form⟩ := readId_eq_some.mp id_read
        exact (idForm_iff.mp form).2
      cases method with
      | some method =>
          obtain ⟨params, form, rfl⟩ := rest
          cases id with
          | some id => exact ⟨fits id rfl, form.structured⟩
          | none => exact form.structured
      | none =>
          cases id with
          | none => cases rest
          | some id =>
              obtain ⟨outcome, told, rfl⟩ := map_eq_ok.mp rest
              rcases readOutcome_eq_ok.mp told with ⟨_, -, -, rfl⟩ | ⟨w, e, -, -, error_read, rfl⟩
              · exact fits id rfl
              · exact ⟨fits id rfl, ErrorObject.normal_of_ofJson error_read⟩
  | _ => cases read

/-! ### What is written -/

namespace Message

def id? : Message → Option Id
  | .request r => some r.id
  | .notification _ => none
  | .response r => some r.id

def params? : Message → Option Json
  | .request r => r.params
  | .notification n => n.params
  | .response _ => none

def result? : Message → Option Json
  | .response ⟨_, .ok result⟩ => some result
  | _ => none

def error? : Message → Option ErrorObject
  | .response ⟨_, .error e⟩ => some e
  | _ => none

end Message

/-- The members of an envelope are the parts of its message. -/
structure Holds (v : Json) (m : Message) : Prop where
  version : v.get? "jsonrpc" = some (.str version)
  id : v.get? "id" = m.id?.map Id.toJson
  method : v.get? "method" = m.method?.map .str
  params : v.get? "params" = m.params?
  result : v.get? "result" = m.result?
  error : v.get? "error" = m.error?.map ErrorObject.toJson

theorem get?_ofPresent (key : String) (members : List (String × Option Json)) :
    (Json.ofPresent members).get? key =
      Json.find? key (members.filterMap fun m => m.2.map fun v => (m.1, v)).reverse :=
  Json.find?_ordered key _

theorem Message.toJson_holds (m : Message) : Holds m.toJson m := by
  rcases m with ⟨id, method, params⟩ | ⟨method, params⟩ | ⟨id, e | result⟩
  · cases params <;> constructor <;> simp only [toJson, get?_ofPresent] <;> rfl
  · cases params <;> constructor <;> simp only [toJson, get?_ofPresent] <;> rfl
  · constructor <;> simp only [toJson, get?_ofPresent] <;> rfl
  · constructor <;> simp only [toJson, get?_ofPresent] <;> rfl

theorem Message.toJson_obj (m : Message) : ∃ ms, m.toJson = .obj ms := by
  rcases m with r | n | ⟨id, e | result⟩ <;> exact ⟨_, rfl⟩

theorem ErrorObject.toJson_distinct {e : ErrorObject} {ms : List (String × Json)}
    (written : e.toJson = .obj ms) : (Json.keys ms).Nodup := by
  obtain rfl := Json.obj.inj written
  exact (Json.ordered_increasing _).distinct

/-- The members of an error are the parts of it. -/
structure ErrorObject.Told (v : Json) (e : ErrorObject) : Prop where
  code : v.get? "code" = some (.int e.code)
  message : v.get? "message" = some (.str e.message)
  data : v.get? "data" = e.data

theorem ErrorObject.toJson_told (e : ErrorObject) : Told e.toJson e := by
  obtain ⟨code, message, data⟩ := e
  cases data <;> constructor <;> simp only [toJson, get?_ofPresent] <;> rfl

theorem ErrorObject.toJson_form {e : ErrorObject} (normal : e.Normal) : KeyedError e.toJson e := by
  have told := e.toJson_told
  have data : dataOf (e.toJson.get? "data") = e.data := by
    rw [told.data, dataOf_eq_self normal.data]
  have form := KeyedError.keyed told.code normal.fits told.message
  rwa [show dataOf (Json.find? "data" _) = e.data from data] at form

theorem Message.toJson_form {m : Message} (normal : m.Normal) : Envelope AnyError m.toJson m := by
  have holds := m.toJson_holds
  obtain ⟨ms, written⟩ := m.toJson_obj
  rw [written] at holds ⊢
  rcases m with ⟨id, method, params⟩ | ⟨method, params⟩ | ⟨id, e | result⟩
  · have kept : Json.find? "params" ms = params := holds.params
    exact .request holds.version holds.id (idForm_iff.mpr ⟨rfl, normal.1⟩) holds.method
      (kept ▸ normal.2.form)
  · have kept : Json.find? "params" ms = params := holds.params
    exact .notification holds.version holds.id holds.method (kept ▸ normal.form)
  · exact .error holds.version holds.id (idForm_iff.mpr ⟨rfl, normal.1⟩) holds.method holds.result
      holds.error (.inl (ErrorObject.toJson_form normal.2))
  · exact .result holds.version holds.id (idForm_iff.mpr ⟨rfl, normal⟩) holds.method holds.result
      holds.error

theorem Message.ofJson_toJson {m : Message} (normal : m.Normal) : ofJson m.toJson = .ok m := by
  refine (ofJson_iff fun ms failed => ?_).mpr (toJson_form normal)
  rw [m.toJson_holds.error] at failed
  obtain ⟨e, -, written⟩ := Option.map_eq_some_iff.mp failed
  exact ErrorObject.toJson_distinct written

/-! ### One envelope, one message -/

theorem sameMembers_find? {as bs : List (String × Json)} (same : Json.sameMembers as bs = true)
    (key : String) : sameOption (Json.find? key as) (Json.find? key bs) = true := by
  induction as generalizing bs with
  | nil =>
      cases bs with
      | nil => rfl
      | cons b bs => cases same
  | cons a as ih =>
      cases bs with
      | nil => cases same
      | cons b bs =>
          simp only [Json.sameMembers, Bool.and_eq_true, beq_iff_eq] at same
          obtain ⟨⟨name, value⟩, rest⟩ := same
          rw [Json.find?, Json.find?, name]
          split
          · exact value
          · exact ih rest

theorem same_get? {v w : Json} (same : v.same w = true) (key : String) :
    sameOption (v.get? key) (w.get? key) = true := by
  cases v with
  | obj ms =>
      cases w with
      | obj ns => exact sameMembers_find? (by rwa [Json.same] at same) key
      | _ => cases same
  | _ => cases w <;> first | rfl | cases same

theorem Id.eq_of_same {id other : Id} (same : id.toJson.same other.toJson = true) : id = other := by
  cases id <;> cases other <;> simp_all [toJson, Json.int, Json.same, Number.same]

theorem ErrorObject.same_of_toJson {e f : ErrorObject} (same : e.toJson.same f.toJson = true) :
    e.same f = true := by
  have code := same_get? same "code"
  have message := same_get? same "message"
  have data := same_get? same "data"
  rw [e.toJson_told.code, f.toJson_told.code] at code
  rw [e.toJson_told.message, f.toJson_told.message] at message
  rw [e.toJson_told.data, f.toJson_told.data] at data
  simp_all [ErrorObject.same, sameOption, Json.int, Json.same, Number.same]

theorem eq_of_same_str {s t : String} (same : (Json.str s).same (.str t) = true) : s = t := by
  rwa [Json.same, beq_iff_eq] at same

theorem Message.same_of_toJson {m n : Message} (same : m.toJson.same n.toJson = true) :
    m.same n = true := by
  have id := same_get? same "id"
  have method := same_get? same "method"
  have params := same_get? same "params"
  have result := same_get? same "result"
  have error := same_get? same "error"
  rw [m.toJson_holds.id, n.toJson_holds.id] at id
  rw [m.toJson_holds.method, n.toJson_holds.method] at method
  rw [m.toJson_holds.params, n.toJson_holds.params] at params
  rw [m.toJson_holds.result, n.toJson_holds.result] at result
  rw [m.toJson_holds.error, n.toJson_holds.error] at error
  cases m with
  | request r =>
      cases n with
      | request r' =>
          simp only [Message.same, Bool.and_eq_true, beq_iff_eq]
          exact ⟨⟨Id.eq_of_same id, eq_of_same_str method⟩, params⟩
      | notification n => cases id
      | response r' => cases method
  | notification n =>
      rename_i n'
      cases n' with
      | request r => cases id
      | notification n' =>
          rw [Message.same, Bool.and_eq_true, beq_iff_eq]
          exact ⟨eq_of_same_str method, params⟩
      | response r => cases method
  | response r =>
      cases n with
      | request r' => cases method
      | notification n => cases method
      | response r' =>
          obtain ⟨i, e | v⟩ := r <;> obtain ⟨j, f | w⟩ := r'
          · rw [Message.same, Bool.and_eq_true, beq_iff_eq]
            exact ⟨Id.eq_of_same id, ErrorObject.same_of_toJson error⟩
          · cases result
          · cases result
          · rw [Message.same, Bool.and_eq_true, beq_iff_eq]
            exact ⟨Id.eq_of_same id, result⟩

/-- A message is normal just when it is read back from its envelope, every message that is read from
any document is, and no two normal messages have one envelope, as documents or as equal documents. -/
theorem read_back (m : Message) :
    (m.Normal ↔ Message.ofJson m.toJson = .ok m) ∧
      (∀ v, Message.ofJson v = .ok m → m.Normal ∧ Message.ofJson m.toJson = .ok m) ∧
      (∀ n : Message, m.Normal → n.Normal → m.toJson = n.toJson → m = n) ∧
      ∀ n : Message, m.toJson.same n.toJson = true → m.same n = true := by
  refine ⟨⟨Message.ofJson_toJson, Message.normal_of_ofJson⟩, fun v read => ?_, fun n normal other same => ?_,
    fun n => Message.same_of_toJson⟩
  · have normal := Message.normal_of_ofJson read
    exact ⟨normal, Message.ofJson_toJson normal⟩
  · have read := Message.ofJson_toJson normal
    rw [same, Message.ofJson_toJson other] at read
    exact (Except.ok.inj read).symm

/-- Null data is read as none. -/
example : Message.ofJson (.obj [("error", .obj [("code", .int 1), ("data", .null), ("message", .str "m")]),
    ("id", .str "a"), ("jsonrpc", .str "2.0")]) = .ok (.response ⟨.text "a", .error ⟨1, "m", none⟩⟩) := rfl

end ServerProbe.Rpc
