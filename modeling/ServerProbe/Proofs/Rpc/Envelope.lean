import ServerProbe.Proofs.Json.Members
import ServerProbe.Rpc.Envelope
/-!
What counts as an envelope. The documents that are accepted are described member by member, apart from
the order in which they are checked; the messages that come of them are those whose envelope is read
back as the message.
-/

namespace ServerProbe.Rpc

theorem bind_eq_ok {ε α β : Type} {x : Except ε α} {f : α → Except ε β} {b : β} :
    x >>= f = .ok b ↔ ∃ a, x = .ok a ∧ f a = .ok b := by
  cases x with
  | error fault => exact ⟨fun h => (by cases h), fun ⟨_, read, _⟩ => (by cases read)⟩
  | ok a => exact ⟨fun h => ⟨a, rfl, h⟩, fun ⟨_, same, h⟩ => Except.ok.inj same ▸ h⟩

theorem map_eq_ok {ε α β : Type} {x : Except ε α} {f : α → β} {b : β} :
    x.map f = .ok b ↔ ∃ a, x = .ok a ∧ f a = b := by
  cases x with
  | error fault => exact ⟨fun h => (by cases h), fun ⟨_, read, _⟩ => (by cases read)⟩
  | ok a => exact ⟨fun h => ⟨a, rfl, Except.ok.inj h⟩, fun ⟨_, same, h⟩ => Except.ok.inj same ▸ h ▸ rfl⟩

/-! ### Forms of the members -/

/-- An integer of 64 bits. -/
def Long (n : Int) : Prop := -(UInt64.size / 2 : Nat) ≤ n ∧ n < (UInt64.size / 2 : Nat)

/-- A document as an id. -/
inductive IdForm : Json → Id → Prop
  | text (s : String) : IdForm (.str s) (.text s)
  | number {n : Int} (long : Long n) : IdForm (.int n) (.number n)

/-- A member as params, null being the same as none. -/
inductive ParamsForm : Option Json → Option Json → Prop
  | absent : ParamsForm none none
  | null : ParamsForm (some .null) none
  | object (ms : List (String × Json)) : ParamsForm (some (.obj ms)) (some (.obj ms))
  | array (vs : List Json) : ParamsForm (some (.arr vs)) (some (.arr vs))

/-- Null data is the same as none. -/
def dataOf (found : Option Json) : Option Json := found.filter fun v => !v.isNull

/-- An error as an object with a code and a message. -/
inductive KeyedError : Json → ErrorObject → Prop
  | keyed {ms : List (String × Json)} {code : Int} {message : String}
      (coded : Json.find? "code" ms = some (.int code)) (long : Long code)
      (worded : Json.find? "message" ms = some (.str message)) :
      KeyedError (.obj ms) ⟨code, message, dataOf (Json.find? "data" ms)⟩

/-- An error as an array of a code, a message and perhaps data. -/
inductive ListedError : Json → ErrorObject → Prop
  | listed {code : Int} (long : Long code) (message : String) (data : Option Json) :
      ListedError (.arr (.int code :: .str message :: data.toList)) ⟨code, message, dataOf data⟩

def AnyError (v : Json) (e : ErrorObject) : Prop := KeyedError v e ∨ ListedError v e

/-- A document as a message, for a way of writing errors. -/
inductive Envelope (Error : Json → ErrorObject → Prop) : Json → Message → Prop
  | request {ms : List (String × Json)} {v : Json} {id : Id} {method : String} {params : Option Json}
      (versioned : Json.find? "jsonrpc" ms = some (.str version))
      (identified : Json.find? "id" ms = some v) (id_form : IdForm v id)
      (named : Json.find? "method" ms = some (.str method))
      (params_form : ParamsForm (Json.find? "params" ms) params) :
      Envelope Error (.obj ms) (.request ⟨id, method, params⟩)
  | notification {ms : List (String × Json)} {method : String} {params : Option Json}
      (versioned : Json.find? "jsonrpc" ms = some (.str version))
      (unidentified : Json.find? "id" ms = none)
      (named : Json.find? "method" ms = some (.str method))
      (params_form : ParamsForm (Json.find? "params" ms) params) :
      Envelope Error (.obj ms) (.notification ⟨method, params⟩)
  | result {ms : List (String × Json)} {v : Json} {id : Id} {result : Json}
      (versioned : Json.find? "jsonrpc" ms = some (.str version))
      (identified : Json.find? "id" ms = some v) (id_form : IdForm v id)
      (unnamed : Json.find? "method" ms = none)
      (succeeded : Json.find? "result" ms = some result)
      (faultless : Json.find? "error" ms = none) :
      Envelope Error (.obj ms) (.response ⟨id, .ok result⟩)
  | error {ms : List (String × Json)} {v : Json} {id : Id} {w : Json} {e : ErrorObject}
      (versioned : Json.find? "jsonrpc" ms = some (.str version))
      (identified : Json.find? "id" ms = some v) (id_form : IdForm v id)
      (unnamed : Json.find? "method" ms = none)
      (resultless : Json.find? "result" ms = none)
      (failed : Json.find? "error" ms = some w) (error_form : Error w e) :
      Envelope Error (.obj ms) (.response ⟨id, .error e⟩)

/-! ### Reading a member -/

theorem asInt?_eq_some {v : Json} {n : Int} : v.asInt? = some n ↔ v = .int n ∧ Long n := by
  constructor
  · intro read
    unfold Json.asInt? at read
    split at read
    · split at read
      · rename_i long
        obtain rfl := Option.some.inj read
        exact ⟨rfl, long⟩
      · cases read
    · cases read
  · rintro ⟨rfl, long⟩
    exact if_pos long

theorem toI64_eq_ok {v : Json} {n : Int} : v.toI64 = .ok n ↔ v = .int n ∧ Long n := by
  constructor
  · intro read
    unfold Json.toI64 Json.toWhole at read
    split at read
    · split at read
      · rename_i long
        obtain rfl := Except.ok.inj read
        exact ⟨rfl, long⟩
      · cases read
    · cases read
  · rintro ⟨rfl, long⟩
    exact if_pos long

theorem toText_eq_ok {v : Json} {s : String} : v.toText = .ok s ↔ v = .str s := by
  constructor
  · intro read
    unfold Json.toText at read
    split at read
    · rw [Except.ok.inj read]
    · cases read
  · rintro rfl
    rfl

theorem ofJson?_eq_some {v : Json} {id : Id} : Id.ofJson? v = some id ↔ IdForm v id := by
  constructor
  · intro read
    unfold Id.ofJson? at read
    split at read
    · obtain rfl := Option.some.inj read
      exact .text _
    · obtain ⟨n, number, rfl⟩ := Option.map_eq_some_iff.mp read
      obtain ⟨rfl, long⟩ := asInt?_eq_some.mp number
      exact .number long
  · intro form
    cases form with
    | text s => rfl
    | number long => exact congrArg (Option.map Id.number) (asInt?_eq_some.mpr ⟨rfl, long⟩)

theorem readVersion_eq_ok {found : Option Json} {u : Unit} :
    readVersion found = .ok u ↔ found = some (.str version) := by
  constructor
  · intro read
    unfold readVersion at read
    split at read
    · split at read
      · rename_i same
        rw [eq_of_beq same]
      · cases read
    · cases read
    · cases read
  · rintro rfl
    rfl

theorem readId_eq_none {found : Option Json} : readId found = .ok none ↔ found = none := by
  constructor
  · intro read
    unfold readId at read
    split at read
    · rfl
    · split at read <;> cases read
  · rintro rfl
    rfl

theorem readId_eq_some {found : Option Json} {id : Id} :
    readId found = .ok (some id) ↔ ∃ v, found = some v ∧ IdForm v id := by
  constructor
  · intro read
    unfold readId at read
    split at read
    · cases read
    · rename_i v
      split at read
      · rename_i held form
        obtain rfl := Option.some.inj (Except.ok.inj read)
        exact ⟨v, rfl, ofJson?_eq_some.mp form⟩
      · cases read
  · rintro ⟨v, rfl, form⟩
    rw [readId, ofJson?_eq_some.mpr form]

theorem readMethod_eq_none {found : Option Json} : readMethod found = .ok none ↔ found = none := by
  constructor
  · intro read
    unfold readMethod at read
    split at read
    · rfl
    · cases read
    · cases read
  · rintro rfl
    rfl

theorem readMethod_eq_some {found : Option Json} {method : String} :
    readMethod found = .ok (some method) ↔ found = some (.str method) := by
  constructor
  · intro read
    unfold readMethod at read
    split at read
    · cases read
    · rw [Option.some.inj (Except.ok.inj read)]
    · cases read
  · rintro rfl
    rfl

theorem readParams_eq_ok {found params : Option Json} :
    readParams found = .ok params ↔ ParamsForm found params := by
  constructor
  · intro read
    unfold readParams at read
    split at read
    · obtain rfl := Except.ok.inj read
      exact .absent
    · obtain rfl := Except.ok.inj read
      exact .null
    · obtain rfl := Except.ok.inj read
      exact .object _
    · obtain rfl := Except.ok.inj read
      exact .array _
    · cases read
  · intro form
    cases form <;> rfl

/-! ### Reading an error -/

theorem visitMembers_cons {σ : Type} {r : RecordShape} {put : σ → String → Json → Json.Shaped σ}
    {s t : σ} {m : String × Json} {ms : List (String × Json)} :
    r.visitMembers put s (m :: ms) = .ok t ↔
      ∃ mid, r.visitMembers put s [m] = .ok mid ∧ r.visitMembers put mid ms = .ok t := by
  obtain ⟨name, v⟩ := m
  rw [← bind_eq_ok]
  simp only [RecordShape.visitMembers]
  split
  · cases put s name v <;> rfl
  · split <;> rfl

theorem visitItems_cons {σ : Type} {r : RecordShape} {put : σ → String → Json → Json.Shaped σ}
    {total index : Nat} {s t : σ} {field : String × Bool} {fields : List (String × Bool)} {v : Json}
    {vs : List Json} : r.visitItems put total index s (field :: fields) (v :: vs) = .ok t ↔
      ∃ mid, put s field.1 v = .ok mid ∧
        r.visitItems put total (index + 1) mid fields vs = .ok t := by
  rw [← bind_eq_ok, RecordShape.visitItems]
  cases put s field.1 v <;> rfl

/-- What a member makes of a field: without it the field stays as it was. -/
def Puts {α : Type} (read : Json → Json.Shaped (Option α)) (old : Option α) (found : Option Json)
    (new : Option α) : Prop :=
  match found with
  | none => new = old
  | some v => read v = .ok new

theorem puts_self {α : Type} {read : Json → Json.Shaped (Option α)} {old new : Option α}
    {key : String} {v : Json} :
    Puts read old (Json.find? key [(key, v)]) new ↔ read v = .ok new := by
  rw [Json.find?_cons_self]
  rfl

theorem puts_other {α : Type} {read : Json → Json.Shaped (Option α)} {old new : Option α}
    {key name : String} {v : Json} (other : name ≠ key) :
    Puts read old (Json.find? key [(name, v)]) new ↔ new = old := by
  rw [Json.find?_cons_of_ne other]
  rfl

theorem puts_cons {α : Type} {read : Json → Json.Shaped (Option α)} {old new : Option α}
    {key name : String} {v : Json} {ms : List (String × Json)} (once : Json.find? name ms = none) :
    Puts read old (Json.find? key ((name, v) :: ms)) new ↔
      ∃ mid, Puts read old (Json.find? key [(name, v)]) mid ∧ Puts read mid (Json.find? key ms) new := by
  by_cases here : name = key
  · subst here
    rw [Json.find?_cons_self, Json.find?_cons_self, once]
    exact ⟨fun read => ⟨new, read, rfl⟩, fun ⟨_, read, same⟩ => same ▸ read⟩
  · rw [Json.find?_cons_of_ne here, Json.find?_cons_of_ne here]
    exact ⟨fun later => ⟨old, rfl, later⟩, fun ⟨_, same, later⟩ => same ▸ later⟩

namespace ErrorFields

def readCode (v : Json) : Json.Shaped (Option Int) := v.toI64.map some

def readMessage (v : Json) : Json.Shaped (Option String) := v.toText.map some

def readData (v : Json) : Json.Shaped (Option Json) := .ok (dataOf (some v))

/-- Each field is read from the member of its name, and from no other. -/
structure Gathered (e : ErrorFields) (ms : List (String × Json)) (f : ErrorFields) : Prop where
  code : Puts readCode e.code (Json.find? "code" ms) f.code
  message : Puts readMessage e.message (Json.find? "message" ms) f.message
  data : Puts readData e.data (Json.find? "data" ms) f.data

theorem gathered_iff {e f : ErrorFields} {ms : List (String × Json)} : Gathered e ms f ↔
    Puts readCode e.code (Json.find? "code" ms) f.code ∧
      Puts readMessage e.message (Json.find? "message" ms) f.message ∧
        Puts readData e.data (Json.find? "data" ms) f.data :=
  ⟨fun h => ⟨h.code, h.message, h.data⟩, fun ⟨code, message, data⟩ => ⟨code, message, data⟩⟩

theorem gathered_nil {e f : ErrorFields} : Gathered e [] f ↔ e = f := by
  constructor
  · rintro ⟨code, message, data⟩
    cases e
    cases f
    cases code
    cases message
    cases data
    rfl
  · rintro rfl
    exact ⟨rfl, rfl, rfl⟩

theorem gathered_cons {e f : ErrorFields} {m : String × Json} {ms : List (String × Json)}
    (once : Json.find? m.1 ms = none) :
    Gathered e (m :: ms) f ↔ ∃ g, Gathered e [m] g ∧ Gathered g ms f := by
  constructor
  · intro h
    obtain ⟨code, code_read, code_kept⟩ := (puts_cons once).mp h.code
    obtain ⟨message, message_read, message_kept⟩ := (puts_cons once).mp h.message
    obtain ⟨data, data_read, data_kept⟩ := (puts_cons once).mp h.data
    exact ⟨⟨code, message, data⟩, ⟨code_read, message_read, data_read⟩,
      ⟨code_kept, message_kept, data_kept⟩⟩
  · rintro ⟨g, first, later⟩
    exact ⟨(puts_cons once).mpr ⟨_, first.code, later.code⟩,
      (puts_cons once).mpr ⟨_, first.message, later.message⟩,
      (puts_cons once).mpr ⟨_, first.data, later.data⟩⟩

theorem readCode_eq_ok {v : Json} {found : Option Int} :
    readCode v = .ok found ↔ ∃ code, (v = .int code ∧ Long code) ∧ some code = found := by
  simp only [readCode, map_eq_ok, toI64_eq_ok]

theorem readMessage_eq_ok {v : Json} {found : Option String} :
    readMessage v = .ok found ↔ ∃ message, v = .str message ∧ some message = found := by
  simp only [readMessage, map_eq_ok, toText_eq_ok]

theorem put_code {e f : ErrorFields} {v : Json} : e.put "code" v = .ok f ↔
    ∃ code, (v = .int code ∧ Long code) ∧ { e with code := some code } = f := by
  simp only [put, map_eq_ok, toI64_eq_ok]

theorem put_message {e f : ErrorFields} {v : Json} : e.put "message" v = .ok f ↔
    ∃ message, v = .str message ∧ { e with message := some message } = f := by
  simp only [put, map_eq_ok, toText_eq_ok]

theorem put_data {e f : ErrorFields} {v : Json} :
    e.put "data" v = .ok f ↔ { e with data := dataOf (some v) } = f := by
  have same : e.put "data" v = .ok { e with data := dataOf (some v) } := by cases v <;> rfl
  rw [same]
  exact ⟨Except.ok.inj, congrArg Except.ok⟩

theorem visit_known {e f : ErrorFields} {name : String} {v : Json}
    (known : name ∈ ErrorObject.shape.names) :
    ErrorObject.shape.visitMembers put e [(name, v)] = .ok f ↔ e.put name v = .ok f := by
  rw [RecordShape.visitMembers, if_pos (List.contains_iff_mem.mpr known)]
  cases e.put name v <;> rfl

theorem visit_unknown {e f : ErrorFields} {name : String} {v : Json}
    (unknown : name ∉ ErrorObject.shape.names) :
    ErrorObject.shape.visitMembers put e [(name, v)] = .ok f ↔ e = f := by
  rw [RecordShape.visitMembers, if_neg (mt List.contains_iff_mem.mp unknown)]
  exact ⟨Except.ok.inj, congrArg Except.ok⟩

theorem visit_member {e f : ErrorFields} {m : String × Json} :
    ErrorObject.shape.visitMembers put e [m] = .ok f ↔ Gathered e [m] f := by
  obtain ⟨name, v⟩ := m
  by_cases coded : name = "code"
  · subst coded
    rw [visit_known (by decide), put_code, gathered_iff, puts_self, puts_other (by decide),
      puts_other (by decide), readCode_eq_ok]
    constructor
    · rintro ⟨n, form, rfl⟩
      exact ⟨⟨n, form, rfl⟩, rfl, rfl⟩
    · rintro ⟨⟨n, form, same⟩, message, data⟩
      exact ⟨n, form, by rw [same, ← message, ← data]⟩
  by_cases worded : name = "message"
  · subst worded
    rw [visit_known (by decide), put_message, gathered_iff, puts_other (by decide), puts_self,
      puts_other (by decide), readMessage_eq_ok]
    constructor
    · rintro ⟨s, form, rfl⟩
      exact ⟨rfl, ⟨s, form, rfl⟩, rfl⟩
    · rintro ⟨code, ⟨s, form, same⟩, data⟩
      exact ⟨s, form, by rw [same, ← code, ← data]⟩
  by_cases extra : name = "data"
  · subst extra
    rw [visit_known (by decide), put_data, gathered_iff, puts_other (by decide),
      puts_other (by decide), puts_self, readData]
    constructor
    · rintro rfl
      exact ⟨rfl, rfl, rfl⟩
    · rintro ⟨code, message, read⟩
      rw [Except.ok.inj read, ← code, ← message]
  · have unknown : name ∉ ErrorObject.shape.names := by
      simp [ErrorObject.shape, RecordShape.names, coded, worded, extra]
    rw [visit_unknown unknown, gathered_iff, puts_other coded, puts_other worded, puts_other extra]
    constructor
    · rintro rfl
      exact ⟨rfl, rfl, rfl⟩
    · rintro ⟨code, message, data⟩
      exact gathered_nil.mp ⟨code, message, data⟩

/-- Each field is read from the member of its name, wherever that stands. -/
theorem visitMembers_eq_ok {e f : ErrorFields} {ms : List (String × Json)}
    (distinct : (Json.keys ms).Nodup) :
    ErrorObject.shape.visitMembers put e ms = .ok f ↔ Gathered e ms f := by
  induction ms generalizing e with
  | nil => exact ⟨fun same => gathered_nil.mpr (Except.ok.inj same),
      fun same => congrArg Except.ok (gathered_nil.mp same)⟩
  | cons m ms ih =>
      obtain ⟨once, rest⟩ := List.nodup_cons.mp distinct
      rw [visitMembers_cons, gathered_cons (Json.find?_eq_none once)]
      simp only [visit_member, ih rest]

theorem puts_data {found data : Option Json} : Puts readData none found data ↔ data = dataOf found := by
  cases found with
  | none => rfl
  | some v => exact ⟨fun read => (Except.ok.inj read).symm, fun same => congrArg Except.ok same.symm⟩

/-- A field that starts empty and ends filled was read from a member. -/
theorem puts_filled {α : Type} {read : Json → Json.Shaped (Option α)} {found : Option Json} {a : α} :
    Puts read none found (some a) ↔ ∃ v, found = some v ∧ read v = .ok (some a) := by
  cases found with
  | none => exact ⟨fun h => (by cases h), fun ⟨_, h, _⟩ => (by cases h)⟩
  | some v => exact ⟨fun h => ⟨v, rfl, h⟩, fun ⟨_, same, h⟩ => Option.some.inj same ▸ h⟩

end ErrorFields

namespace ErrorObject

theorem required_eq_ok {α : Type} {name : String} {found : Option α} {a : α} :
    Json.required name found = .ok a ↔ found = some a := by
  cases found with
  | none => exact ⟨fun h => (by cases h), fun h => (by cases h)⟩
  | some b => exact ⟨fun h => congrArg some (Except.ok.inj h), fun h => congrArg Except.ok (Option.some.inj h)⟩

theorem ofJson_eq_ok {v : Json} {e : ErrorObject} : ofJson v = .ok e ↔
    shape.visit ErrorFields.put ⟨none, none, none⟩ v = .ok ⟨some e.code, some e.message, e.data⟩ := by
  rw [ofJson]
  simp only [bind_eq_ok, required_eq_ok, pure, Except.pure]
  constructor
  · rintro ⟨⟨_, _, _⟩, visited, code, rfl, message, rfl, same⟩
    obtain rfl := Except.ok.inj same
    exact visited
  · intro visited
    exact ⟨_, visited, e.code, rfl, e.message, rfl, rfl⟩

theorem keyed {ms : List (String × Json)} {e : ErrorObject} (distinct : (Json.keys ms).Nodup) :
    ofJson (.obj ms) = .ok e ↔ KeyedError (.obj ms) e := by
  rw [ofJson_eq_ok, RecordShape.visit, ErrorFields.visitMembers_eq_ok distinct,
    ErrorFields.gathered_iff, ErrorFields.puts_filled, ErrorFields.puts_filled, ErrorFields.puts_data]
  obtain ⟨code, message, data⟩ := e
  constructor
  · rintro ⟨⟨v, coded, code_read⟩, ⟨w, worded, message_read⟩, rfl⟩
    obtain ⟨_, ⟨rfl, long⟩, same⟩ := ErrorFields.readCode_eq_ok.mp code_read
    obtain ⟨_, rfl, same'⟩ := ErrorFields.readMessage_eq_ok.mp message_read
    obtain rfl := Option.some.inj same
    obtain rfl := Option.some.inj same'
    exact .keyed coded long worded
  · rintro ⟨coded, long, worded⟩
    exact ⟨⟨_, coded, ErrorFields.readCode_eq_ok.mpr ⟨code, ⟨rfl, long⟩, rfl⟩⟩,
      ⟨_, worded, ErrorFields.readMessage_eq_ok.mpr ⟨message, rfl, rfl⟩⟩, rfl⟩

theorem listed {vs : List Json} {e : ErrorObject} :
    ofJson (.arr vs) = .ok e ↔ ListedError (.arr vs) e := by
  obtain ⟨code, message, data⟩ := e
  rw [ofJson_eq_ok, RecordShape.visit]
  constructor
  · intro visited
    cases vs with
    | nil => cases visited
    | cons v vs =>
        obtain ⟨_, first, visited⟩ := visitItems_cons.mp visited
        obtain ⟨n, ⟨rfl, long⟩, rfl⟩ := ErrorFields.put_code.mp first
        cases vs with
        | nil => cases visited
        | cons v vs =>
            obtain ⟨_, second, visited⟩ := visitItems_cons.mp visited
            obtain ⟨s, rfl, rfl⟩ := ErrorFields.put_message.mp second
            cases vs with
            | nil =>
                cases visited
                exact .listed long _ none
            | cons v vs =>
                obtain ⟨_, third, visited⟩ := visitItems_cons.mp visited
                obtain rfl := ErrorFields.put_data.mp third
                cases vs with
                | nil =>
                    cases visited
                    exact .listed long _ (some v)
                | cons v vs => cases visited
  · intro form
    cases form with
    | listed long message data =>
        have first := ErrorFields.put_code (e := ⟨none, none, none⟩).mpr ⟨code, ⟨rfl, long⟩, rfl⟩
        have second := ErrorFields.put_message (e := ⟨some code, none, none⟩).mpr ⟨message, rfl, rfl⟩
        cases data with
        | none => exact visitItems_cons.mpr ⟨_, first, visitItems_cons.mpr ⟨_, second, rfl⟩⟩
        | some v =>
            have third := ErrorFields.put_data (e := ⟨some code, some message, none⟩) (v := v).mpr rfl
            exact visitItems_cons.mpr ⟨_, first, visitItems_cons.mpr ⟨_, second,
              visitItems_cons.mpr ⟨_, third, rfl⟩⟩⟩

theorem ofJson_iff {v : Json} {e : ErrorObject}
    (distinct : ∀ ms, v = .obj ms → (Json.keys ms).Nodup) : ofJson v = .ok e ↔ AnyError v e := by
  constructor
  · intro read
    cases v with
    | obj ms => exact .inl ((keyed (distinct ms rfl)).mp read)
    | arr vs => exact .inr (listed.mp read)
    | _ => cases read
  · rintro (form | form)
    · cases form with
      | keyed coded long worded => exact (keyed (distinct _ rfl)).mpr (.keyed coded long worded)
    · cases form with
      | listed long message data => exact listed.mpr (.listed long message data)

end ErrorObject

/-! ### Reading an envelope -/

theorem readOutcome_eq_ok {result error : Option Json} {outcome : Outcome} :
    readOutcome result error = .ok outcome ↔
      (∃ v, result = some v ∧ error = none ∧ outcome = .ok v) ∨
        ∃ w e, result = none ∧ error = some w ∧ ErrorObject.ofJson w = .ok e ∧ outcome = .error e := by
  constructor
  · intro read
    unfold readOutcome at read
    split at read
    · rename_i v
      exact .inl ⟨v, rfl, rfl, (Except.ok.inj read).symm⟩
    · rename_i w
      split at read
      · rename_i e form
        exact .inr ⟨w, e, rfl, rfl, form, (Except.ok.inj read).symm⟩
      · cases read
    · cases read
    · cases read
  · rintro (⟨v, rfl, rfl, rfl⟩ | ⟨w, e, rfl, rfl, form, rfl⟩)
    · rfl
    · rw [readOutcome, form]

namespace Message

/-- The document is read member by member, in the order in which faults are reported. -/
theorem ofJson_obj {ms : List (String × Json)} {m : Message} : ofJson (.obj ms) = .ok m ↔
    Json.find? "jsonrpc" ms = some (.str version) ∧
      ∃ id, readId (Json.find? "id" ms) = .ok id ∧
        ∃ method, readMethod (Json.find? "method" ms) = .ok method ∧
          match method with
          | some method => ∃ params, ParamsForm (Json.find? "params" ms) params ∧
              (match id with
                | some id => .request ⟨id, method, params⟩
                | none => .notification ⟨method, params⟩) = m
          | none => readResponse id (Json.find? "result" ms) (Json.find? "error" ms) = .ok m := by
  unfold ofJson
  simp only [bind_eq_ok, readVersion_eq_ok, exists_and_left, exists_const]
  refine and_congr_right fun _ => exists_congr fun id => and_congr_right fun _ =>
    exists_congr fun method => and_congr_right fun _ => ?_
  cases method with
  | none => rfl
  | some method =>
      cases id with
      | none => simp only [bind_eq_ok, readParams_eq_ok, pure, Except.pure, Except.ok.injEq]
      | some id => simp only [bind_eq_ok, readParams_eq_ok, pure, Except.pure, Except.ok.injEq]

theorem ofJson_iff {v : Json} {m : Message}
    (distinct : ∀ ms, v.get? "error" = some (.obj ms) → (Json.keys ms).Nodup) :
    ofJson v = .ok m ↔ Envelope AnyError v m := by
  have errors : ∀ {ms w e}, v = .obj ms → Json.find? "error" ms = some w →
      (ErrorObject.ofJson w = .ok e ↔ AnyError w e) := by
    rintro ms w e rfl failed
    exact ErrorObject.ofJson_iff fun inner same => distinct inner (same ▸ failed)
  constructor
  · intro read
    cases v with
    | obj ms =>
        obtain ⟨versioned, id, id_read, method, method_read, rest⟩ := ofJson_obj.mp read
        cases method with
        | some method =>
            obtain ⟨params, params_form, rfl⟩ := rest
            have named := readMethod_eq_some.mp method_read
            cases id with
            | some id =>
                obtain ⟨w, identified, id_form⟩ := readId_eq_some.mp id_read
                exact .request versioned identified id_form named params_form
            | none => exact .notification versioned (readId_eq_none.mp id_read) named params_form
        | none =>
            have unnamed := readMethod_eq_none.mp method_read
            cases id with
            | none => cases rest
            | some id =>
                obtain ⟨w, identified, id_form⟩ := readId_eq_some.mp id_read
                obtain ⟨outcome, told, rfl⟩ := map_eq_ok.mp rest
                rcases readOutcome_eq_ok.mp told with
                  ⟨result, succeeded, faultless, rfl⟩ | ⟨w, e, resultless, failed, error_form, rfl⟩
                · exact .result versioned identified id_form unnamed succeeded faultless
                · exact .error versioned identified id_form unnamed resultless failed
                    ((errors rfl failed).mp error_form)
    | _ => cases read
  · intro form
    cases form with
    | request versioned identified id_form named params_form =>
        exact ofJson_obj.mpr ⟨versioned, _, readId_eq_some.mpr ⟨_, identified, id_form⟩, _,
          readMethod_eq_some.mpr named, _, params_form, rfl⟩
    | notification versioned unidentified named params_form =>
        exact ofJson_obj.mpr ⟨versioned, _, readId_eq_none.mpr unidentified, _,
          readMethod_eq_some.mpr named, _, params_form, rfl⟩
    | result versioned identified id_form unnamed succeeded faultless =>
        exact ofJson_obj.mpr ⟨versioned, _, readId_eq_some.mpr ⟨_, identified, id_form⟩, _,
          readMethod_eq_none.mpr unnamed, map_eq_ok.mpr ⟨_,
            readOutcome_eq_ok.mpr (.inl ⟨_, succeeded, faultless, rfl⟩), rfl⟩⟩
    | error versioned identified id_form unnamed resultless failed error_form =>
        exact ofJson_obj.mpr ⟨versioned, _, readId_eq_some.mpr ⟨_, identified, id_form⟩, _,
          readMethod_eq_none.mpr unnamed, map_eq_ok.mpr ⟨_, readOutcome_eq_ok.mpr
            (.inr ⟨_, _, resultless, failed, (errors rfl failed).mpr error_form, rfl⟩), rfl⟩⟩

end Message

theorem Envelope.imp {P Q : Json → ErrorObject → Prop} {v : Json} {m : Message} (form : Envelope P v m)
    (sub : ∀ w e, v.get? "error" = some w → P w e → Q w e) : Envelope Q v m := by
  cases form with
  | request versioned identified id_form named params_form =>
      exact .request versioned identified id_form named params_form
  | notification versioned unidentified named params_form =>
      exact .notification versioned unidentified named params_form
  | result versioned identified id_form unnamed succeeded faultless =>
      exact .result versioned identified id_form unnamed succeeded faultless
  | error versioned identified id_form unnamed resultless failed error_form =>
      exact .error versioned identified id_form unnamed resultless failed (sub _ _ failed error_form)

theorem Envelope.keyed {v : Json} {m : Message} (unlisted : ∀ vs, v.get? "error" ≠ some (.arr vs)) :
    Envelope AnyError v m ↔ Envelope KeyedError v m := by
  refine ⟨fun form => form.imp fun w e failed => ?_, fun form => form.imp fun w e failed => .inl⟩
  rintro (keyed | listed)
  · exact keyed
  · cases listed
    exact absurd failed (unlisted _)

/-- A document is accepted just when it is a message of the protocol, or a response whose error is
written as an array of its code, message and data; and the message holds the members of the document. -/
theorem accepted_iff {v : Json} (proper : v.Proper) :
    (∀ m, Message.ofJson v = .ok m ↔ Envelope AnyError v m) ∧
      ((∀ vs, v.get? "error" ≠ some (.arr vs)) →
        ∀ m, Message.ofJson v = .ok m ↔ Envelope KeyedError v m) := by
  have accepted : ∀ m, Message.ofJson v = .ok m ↔ Envelope AnyError v m := by
    refine fun m => Message.ofJson_iff fun ms failed => ?_
    cases proper.get? failed with
    | obj increasing each => exact increasing.distinct
  exact ⟨accepted, fun unlisted m => (accepted m).trans (Envelope.keyed unlisted)⟩

/-- A response whose error is an array. -/
def listedResponse : Json :=
  .obj [("error", .arr [.int (-1), .str "no"]), ("id", .int 1), ("jsonrpc", .str "2.0")]

theorem listedResponse_proper : listedResponse.Proper := by
  refine .obj (show List.Pairwise (· < ·) ["error", "id", "jsonrpc"] by decide +kernel) fun m held => ?_
  simp only [List.mem_cons, List.not_mem_nil, or_false] at held
  obtain rfl | rfl | rfl := held
  · refine .arr fun v held => ?_
    simp only [List.mem_cons, List.not_mem_nil, or_false] at held
    obtain rfl | rfl := held
    · exact .num _
    · exact .str _
  · exact .num _
  · exact .str _

theorem accepted_iff_listed : listedResponse.Proper ∧
    Message.ofJson listedResponse = .ok (.response ⟨.number 1, .error ⟨-1, "no", none⟩⟩) := by
  refine ⟨listedResponse_proper, ((accepted_iff listedResponse_proper).1 _).mpr ?_⟩
  exact .error rfl rfl (.number ⟨by decide, by decide⟩) rfl rfl rfl
    (.inr (.listed ⟨by decide, by decide⟩ "no" none))

/-- It is accepted, though its error is no object. -/
theorem listed_error_accepted :
    Message.ofJson listedResponse = .ok (.response ⟨.number 1, .error ⟨-1, "no", none⟩⟩) ∧
      ¬ ∃ m, Envelope KeyedError listedResponse m := by
  refine ⟨rfl, ?_⟩
  rintro ⟨m, form⟩
  cases form with
  | request _ _ _ named _ => cases named
  | notification _ unidentified _ _ => cases unidentified
  | result _ _ _ _ succeeded _ => cases succeeded
  | error _ _ _ _ _ failed error_form =>
      cases failed
      cases error_form

end ServerProbe.Rpc
