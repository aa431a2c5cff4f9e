import ServerProbe.Proofs.Connection.Correlation
import ServerProbe.Proofs.Connection.Filing
/-!
Runs taken apart into moments: every act, and the connection as it was when the act came. The moments
of a history follow one another without a gap, so what every moment keeps holds at each of them and
at the end.
-/

namespace ServerProbe.Connection

open Rpc (Message Request Response)

variable {η : Type}

/-- The turn that an act comes to. Bytes are taken in by feeding them, and then item by item. -/
def perform (c : Connection η) (now : Time) : Act η → Turn η
  | .feed bytes => ({ c with decoder := (c.decoder.feed bytes).2 }, [])
  | .item item => receive now item c
  | .input (.received _) => (c, [])
  | .input input => c.step now input

theorem perform_single (c : Connection η) (now : Time) {input : Input η}
    (single : ∀ bytes, input ≠ .received bytes) : c.perform now (.input input) = c.step now input := by
  cases input with
  | received bytes => exact absurd rfl (single bytes)
  | _ => rfl

theorem perform_deed (c : Connection η) (now : Time) (act : Act η) :
    DeedOf now c act (c.perform now act) := by
  cases act with
  | feed bytes =>
      exact Deed.idle ⟨rfl, rfl, rfl, rfl, rfl, rfl, .inl rfl⟩ fun _ same => by cases same
  | item item => exact receive_deed c now item
  | input input =>
      by_cases bytes : ∃ bytes, input = .received bytes
      · obtain ⟨bytes, rfl⟩ := bytes
        exact .unchanged now c _
      · have single : ∀ bytes, input ≠ .received bytes := fun b same => bytes ⟨b, same⟩
        rw [perform_single c now single]
        exact step_deed single

def performAll (c : Connection η) (now : Time) (acts : List (Act η)) : Turn η :=
  Turn.each (fun act c => c.perform now act) acts c

theorem performAll_items (c : Connection η) (now : Time) (items : List Framing.Decoded) :
    c.performAll now (items.map .item) = c.receiveAll now items := by
  induction items generalizing c with
  | nil => rfl
  | cons item items ih =>
      have rest := ih (receive now item c).1
      simp only [performAll, receiveAll, Turn.each, Turn.andThen, List.map_cons, perform] at rest ⊢
      rw [rest]

theorem performAll_acts (c : Connection η) (now : Time) (input : Input η) :
    c.performAll now (c.acts input) = c.step now input := by
  by_cases bytes : ∃ bytes, input = .received bytes
  · obtain ⟨bytes, rfl⟩ := bytes
    exact performAll_items { c with decoder := (c.decoder.feed bytes).2 } now (c.decoder.feed bytes).1
  · have single : ∀ bytes, input ≠ .received bytes := fun b same => bytes ⟨b, same⟩
    rw [c.acts_single single]
    simp only [performAll, Turn.each, Turn.andThen, List.append_nil, perform_single c now single]

/-! ### Moments -/

structure Moment (η : Type) where
  time : Time
  before : Connection η
  act : Act η

namespace Moment

def next (m : Moment η) : Connection η := (m.before.perform m.time m.act).1

def out (m : Moment η) : List (Output η) := (m.before.perform m.time m.act).2

theorem dealt (m : Moment η) : Deed m.time m.before m.act m.next m.out :=
  perform_deed m.before m.time m.act

end Moment

/-- The outputs of moments, one after the other. -/
def written (moments : List (Moment η)) : List (Output η) := moments.flatMap Moment.out

@[simp] theorem written_append (a b : List (Moment η)) : written (a ++ b) = written a ++ written b :=
  List.flatMap_append

@[simp] theorem written_singleton (m : Moment η) : written [m] = m.out := List.append_nil m.out

def through (now : Time) : List (Act η) → Connection η → List (Moment η)
  | [], _ => []
  | act :: acts, c => ⟨now, c, act⟩ :: through now acts (c.perform now act).1

def moments (c : Connection η) : List (Time × Input η) → List (Moment η)
  | [] => []
  | (now, input) :: history =>
    through now (c.acts input) c ++ (c.step now input).1.moments history

/-- Each moment begins where the one before it has led. -/
inductive Path : Connection η → List (Moment η) → Connection η → Prop
  | nil {c : Connection η} : Path c [] c
  | cons {m : Moment η} {rest : List (Moment η)} {d : Connection η} (later : Path m.next rest d) :
      Path m.before (m :: rest) d

namespace Path

variable {c d e : Connection η} {ms early late : List (Moment η)} {m : Moment η}

theorem append (first : Path c early d) (later : Path d late e) : Path c (early ++ late) e := by
  induction first with
  | nil => exact later
  | cons _ ih => exact .cons (ih later)

theorem split (path : Path c (early ++ m :: late) d) :
    Path c early m.before ∧ Path m.next late d := by
  induction early generalizing c with
  | nil =>
      cases path with
      | cons later => exact ⟨.nil, later⟩
  | cons first early ih =>
      cases path with
      | cons later => exact ⟨.cons (ih later).1, (ih later).2⟩

/-- What every moment keeps holds at the end of a path. -/
theorem induction {P : Connection η → List (Moment η) → Prop} (path : Path c ms d)
    (start : P c []) (moment : ∀ m ∈ ms, ∀ past, P m.before past → P m.next (past ++ [m])) :
    P d ms := by
  have from_past : ∀ past, P c past → P d (past ++ ms) := by
    clear start
    induction path with
    | nil =>
        intro past held
        rwa [List.append_nil]
    | @cons m rest d later ih =>
        intro past held
        have here : P m.next (past ++ [m]) := moment m List.mem_cons_self past held
        have there := ih (fun n n_in => moment n (List.mem_cons_of_mem m n_in)) (past ++ [m]) here
        rwa [List.append_assoc, List.singleton_append] at there
  exact from_past [] start

end Path

theorem through_path (c : Connection η) (now : Time) (acts : List (Act η)) :
    Path c (through now acts c) (c.performAll now acts).1 ∧
      written (through now acts c) = (c.performAll now acts).2 := by
  induction acts generalizing c with
  | nil => exact ⟨.nil, rfl⟩
  | cons act acts ih =>
      obtain ⟨path, out⟩ := ih (c.perform now act).1
      refine ⟨Path.cons (m := ⟨now, c, act⟩) path, ?_⟩
      exact congrArg ((c.perform now act).2 ++ ·) out

theorem run_path (c : Connection η) (history : List (Time × Input η)) :
    Path c (c.moments history) (c.run history).1 ∧
      written (c.moments history) = (c.run history).2 := by
  induction history generalizing c with
  | nil => exact ⟨.nil, rfl⟩
  | cons entry history ih =>
      obtain ⟨now, input⟩ := entry
      obtain ⟨path, out⟩ := through_path c now (c.acts input)
      rw [performAll_acts] at path out
      obtain ⟨later, more⟩ := ih (c.step now input).1
      rw [run_cons]
      refine ⟨path.append later, ?_⟩
      rw [moments, written_append, out, more]

/-- The moments of a history, from the beginning of a connection. -/
def past (config : ClientConfig) (history : List (Time × Input η)) : List (Moment η) :=
  (fresh config).moments history

theorem past_path (config : ClientConfig) (history : List (Time × Input η)) :
    Path (fresh config) (past config history) (after config history) := (run_path _ history).1

theorem written_past (config : ClientConfig) (history : List (Time × Input η)) :
    written (past config history) = outputs config history := (run_path _ history).2

/-- What every moment of a history keeps holds at each of its moments. -/
theorem past_at {P : Connection η → List (Moment η) → Prop} {config : ClientConfig}
    {history : List (Time × Input η)} (start : P (fresh config) [])
    (moment : ∀ m ∈ past config history, ∀ past, P m.before past → P m.next (past ++ [m]))
    {early late : List (Moment η)} {m : Moment η} (split : past config history = early ++ m :: late) :
    P m.before early := by
  have path := past_path config history
  rw [split] at path moment
  refine path.split.1.induction start fun n n_in => moment n ?_
  exact List.mem_append_left _ n_in

/-- What every moment of a history keeps holds after it. -/
theorem past_after {P : Connection η → List (Moment η) → Prop} {config : ClientConfig}
    {history : List (Time × Input η)} (start : P (fresh config) [])
    (moment : ∀ m ∈ past config history, ∀ past, P m.before past → P m.next (past ++ [m])) :
    P (after config history) (past config history) := (past_path config history).induction start moment

/-! ### The acts of a history -/

def Act.item? : Act η → Option Framing.Decoded
  | .item decoded => some decoded
  | _ => none

theorem through_acts (now : Time) (acts : List (Act η)) (c : Connection η) :
    (through now acts c).map Moment.act = acts := by
  induction acts generalizing c with
  | nil => rfl
  | cons act acts ih => simp only [through, List.map_cons, ih]

theorem through_time {now : Time} {acts : List (Act η)} {c : Connection η} {m : Moment η}
    (h : m ∈ through now acts c) : m.time = now := by
  induction acts generalizing c with
  | nil => cases h
  | cons act acts ih =>
      rcases List.mem_cons.mp h with rfl | later
      · rfl
      · exact ih later

theorem acts_items (c : Connection η) (input : Input η) :
    (c.acts input).filterMap Act.item? = c.arrivals input := by
  cases input with
  | received bytes =>
      have items : ∀ items : List Framing.Decoded,
          (items.map .item).filterMap (Act.item? (η := η)) = items := by
        intro items
        rw [List.filterMap_map]
        exact List.filterMap_some
      exact items (c.decoder.feed bytes).1
  | _ => rfl

/-- The items that are taken in are those that arrive. -/
theorem moments_items (c : Connection η) (history : List (Time × Input η)) :
    ((c.moments history).map Moment.act).filterMap Act.item? = c.arrived history := by
  induction history generalizing c with
  | nil => rfl
  | cons entry history ih =>
      obtain ⟨now, input⟩ := entry
      rw [moments, List.map_append, through_acts, List.filterMap_append, acts_items, ih, arrived]

theorem moments_input {c : Connection η} {history : List (Time × Input η)} {m : Moment η}
    {input : Input η} (h : m ∈ c.moments history) (own : m.act = .input input) :
    (m.time, input) ∈ history := by
  induction history generalizing c with
  | nil => cases h
  | cons entry history ih =>
      obtain ⟨now, other⟩ := entry
      rcases List.mem_append.mp h with here | later
      · have act : m.act ∈ c.acts other := by
          rw [← through_acts now (c.acts other) c]
          exact List.mem_map_of_mem here
        rw [own] at act
        rw [through_time here, mem_acts act]
        exact List.mem_cons_self
      · exact List.mem_cons_of_mem _ (ih later)

/-! ### Writes that fail -/

/-- Something would have been written at the moment, but the link did not take it. -/
def Moment.Stifled (m : Moment η) : Prop :=
  m.before.link ≠ .up ∧ sent ({ m.before with link := .up }.perform m.time m.act).2 ≠ []

instance (m : Moment η) : Decidable m.Stifled := by
  unfold Moment.Stifled
  infer_instance

/-- No write has failed. -/
def Unfailing (config : ClientConfig) (history : List (Time × Input η)) : Prop :=
  ∀ m ∈ past config history, ¬ m.Stifled

instance (config : ClientConfig) (history : List (Time × Input η)) :
    Decidable (Unfailing config history) := by
  unfold Unfailing
  infer_instance

theorem closed_ne_up : Link.closed ≠ .up := by decide

theorem Lapse.sent_of_down {c d : Connection η} {expired : List (Nat × Call)} {out : List (Output η)}
    (h : Lapse c expired d out) (down : c.link ≠ .up) : sent out = [] ∧ d.link ≠ .up := by
  induction h with
  | nil => exact ⟨rfl, down⟩
  | plain other later ih =>
      obtain ⟨silent, stays⟩ := ih down
      refine ⟨?_, stays⟩
      simp [cancelNotice_of_down down, Output.message?, silent]
  | handshake own wrapped later ih =>
      obtain ⟨silent, stays⟩ := ih closed_ne_up
      refine ⟨?_, stays⟩
      simp [cancelNotice_of_down down, Output.message?, silent]

/-- A link that is not up never is again, and nothing is written on it. -/
theorem Deed.sent_of_down {now : Time} {c d : Connection η} {act : Act η} {out : List (Output η)}
    (deed : Deed now c act d out) (down : c.link ≠ .up) : sent out = [] ∧ d.link ≠ .up := by
  cases deed with
  | idle alike unheard =>
      refine ⟨rfl, ?_⟩
      rcases alike.link with same | ⟨up, -⟩
      · rwa [same]
      · exact absurd up down
  | unwritten allowed _ => exact ⟨rfl, down⟩
  | issued valid allowed up => exact absurd up down
  | noted valid allowed up stays => exact absurd up down
  | left running up => exact absurd up down
  | @gaveUp n call calls taken =>
      refine ⟨?_, down⟩
      simp [cancelNotice_of_down down, Output.message?]
  | filed filing turn told =>
      refine ⟨?_, down⟩
      cases told with
      | silent => rfl
      | told method params up allowed file => exact absurd up down
  | answered taken plain => exact ⟨rfl, down⟩
  | shaken taken handshake usable =>
      refine ⟨?_, down⟩
      simp [tryWrite_down down, Output.message?]
  | refused taken handshake fails =>
      refine ⟨?_, closed_ne_up⟩
      simp [Output.message?]
  | stray missed unmatched => exact ⟨rfl, down⟩
  | malformed => exact ⟨rfl, down⟩
  | heard => exact ⟨sent_receiveNotification c _, down⟩
  | called handled => exact ⟨rfl, down⟩
  | declined unhandled => exact ⟨by rw [reply_of_down down, sent_nil], down⟩
  | finished first => exact ⟨by rw [reply_of_down down, sent_nil], down⟩
  | lapsed taken lapse => exact lapse.sent_of_down down
  | ceased running ending => exact ⟨sent_farewell c _ _, closed_ne_up⟩
  | shut gone => exact ⟨sent_closing c, closed_ne_up⟩

theorem Lapse.documents {c d : Connection η} {expired : List (Nat × Call)} {out : List (Output η)}
    (h : Lapse c expired d out) : d.documents = c.documents := by
  induction h with
  | nil => rfl
  | plain other later ih => exact ih
  | handshake own wrapped later ih => exact ih

theorem Deed.counted {now : Time} {c d : Connection η} {act : Act η} {out : List (Output η)}
    (deed : Deed now c act d out) (counted : c.documents.Counted) : d.documents.Counted := by
  cases deed with
  | idle alike unheard => rwa [alike.documents]
  | filed filing turn told =>
      have kept : (c.handle now _).2.1.documents.Counted := counted_of_filing counted filing
      rwa [turn] at kept
  | lapsed taken lapse => rwa [lapse.documents]
  | _ => exact counted

/-! ### Messages and what they are written for -/

/-- What an act can make a connection write. -/
inductive Said (c : Connection η) : Act η → Message → Prop
  | asked {method : String} {params : Option Json} {timeout : Option Span} :
      Said c (.input (.command (.request method params timeout)))
        (.request ⟨.number c.calls.next, method, params⟩)
  | noted {method : String} {params : Option Json}
      (allowed : Session.notificationAllowed c.state method = true) :
      Said c (.input (.command (.notify method params))) (.notification ⟨method, params⟩)
  | left {params : Option Json} :
      Said c (.input (.command (.notify Method.exit params))) (.notification ⟨Method.exit, params⟩)
  | recalled {act : Act η} {id : Nat} :
      Said c act (notice Method.cancelRequest (Payload.cancel id))
  | filed {command : Command η} {method : String} {params : Json} (filing : command.IsFiling)
      (file : method ∈ [Method.didOpen, Method.didChange, Method.didClose]) :
      Said c (.input (.command command)) (notice method params)
  | concluded {n : Nat} {result : Json} {call : Call} {calls : CallTable}
      {capabilities : Capabilities} (taken : c.calls.Taken n call calls)
      (handshake : c.isHandshake call = true)
      (usable : Capabilities.ofResult result = .ok capabilities) :
      Said c (.item (.ok (.response ⟨.number n, .ok result⟩)))
        (notice Method.initializedNotice (.obj []))
  | declined {r : Request} : Said c (.item (.ok (.request r)))
      (.response ⟨r.id, .error (.methodNotFound r.method)⟩)
  | finished {p : Pending η} {queue : List (Pending η)} {how : HandlerEnd}
      (first : c.queue = p :: queue) :
      Said c (.input (.finished how)) (.response ⟨p.id, outcomeOf p.method how⟩)

theorem eq_of_mem_tryWrite {c : Connection η} {m x : Message} (held : x ∈ sent (c.tryWrite m)) :
    x = m := by
  by_cases up : c.link = .up
  · rw [tryWrite_up up] at held
    exact List.mem_singleton.mp held
  · rw [tryWrite_down up] at held
    cases held

theorem eq_of_mem_reply {c : Connection η} {r : Response} {x : Message}
    (held : x ∈ sent (c.reply r).2) : x = .response r := by
  unfold reply at held
  split at held
  · cases held
  · exact eq_of_mem_tryWrite held

theorem eq_of_mem_cancelNotice {c : Connection η} {id : Nat} {x : Message}
    (held : x ∈ sent (c.cancelNotice id)) :
    x = notice Method.cancelRequest (Payload.cancel id) := by
  unfold cancelNotice at held
  split at held
  · exact eq_of_mem_tryWrite held
  · cases held

theorem Lapse.recalls {c d : Connection η} {expired : List (Nat × Call)} {out : List (Output η)}
    (h : Lapse c expired d out) :
    ∀ m ∈ sent out, ∃ id, m = notice Method.cancelRequest (Payload.cancel id) := by
  induction h with
  | nil =>
      intro m held
      cases held
  | plain other later ih =>
      intro m held
      rw [sent_append, sent_cons] at held
      rcases List.mem_append.mp held with withdrawn | rest
      · exact ⟨_, eq_of_mem_cancelNotice withdrawn⟩
      · exact ih m rest
  | handshake own wrapped later ih =>
      intro m held
      simp only [sent_append, sent_cons, sent_farewell, Output.message?, Option.toList_none,
        List.append_nil, List.mem_append] at held
      rcases held with withdrawn | rest
      · exact ⟨_, eq_of_mem_cancelNotice withdrawn⟩
      · exact ih m rest

theorem Deed.said {now : Time} {c d : Connection η} {act : Act η} {out : List (Output η)}
    (deed : Deed now c act d out) : ∀ m ∈ sent out, Said c act m := by
  intro m held
  cases deed with
  | issued valid allowed up =>
      rw [sent_cons, sent_announced, List.append_nil] at held
      obtain rfl := List.mem_singleton.mp held
      exact .asked
  | noted valid allowed up stays =>
      obtain rfl := List.mem_singleton.mp held
      exact .noted allowed
  | left running up =>
      rw [sent_cons, sent_farewell, List.append_nil] at held
      obtain rfl := List.mem_singleton.mp held
      exact .left
  | gaveUp taken =>
      obtain rfl := eq_of_mem_cancelNotice held
      exact .recalled
  | filed filing turn told =>
      cases told with
      | silent => cases held
      | told method params up allowed file =>
          obtain rfl := List.mem_singleton.mp held
          exact .filed filing file
  | shaken taken handshake usable =>
      obtain ⟨rfl, own⟩ := CallTable.takeForResponse_taken taken
      rw [sent_append, sent_cons] at held
      rcases List.mem_append.mp held with notice | none
      · obtain rfl := eq_of_mem_tryWrite notice
        exact .concluded own handshake usable
      · cases none
  | refused taken handshake fails =>
      rw [sent_cons, sent_farewell] at held
      cases held
  | heard =>
      rw [sent_receiveNotification] at held
      cases held
  | declined unhandled =>
      obtain rfl := eq_of_mem_reply held
      exact .declined
  | finished first =>
      obtain rfl := eq_of_mem_reply held
      exact .finished first
  | lapsed taken lapse =>
      obtain ⟨id, rfl⟩ := lapse.recalls m held
      exact .recalled
  | ceased running ending =>
      rw [sent_farewell] at held
      cases held
  | shut gone =>
      rw [sent_closing] at held
      cases held
  | _ => cases held

end ServerProbe.Connection
