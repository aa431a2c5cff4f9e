import ServerProbe.Framing.Stream
import ServerProbe.Proofs.Connection.Lifecycle
import ServerProbe.Proofs.Connection.Moment
/-!
What is published once a session has ended. Its end is the last change that is told of, but not always
the last event: items that come after it are still looked at, those in the same piece of bytes too,
and whatever is wrong with them is still reported.
-/

namespace ServerProbe

open Rpc (Message Notification Request Response)

/-- What is reported of a response that claims no call. -/
def Lookup.complaint (id : Rpc.Id) : Lookup → Anomaly
  | .late method => .lateResponse id method
  | .duplicate method => .duplicateResponse id method
  | .outstanding _ _ | .unknown => .unsolicitedResponse id

namespace Connection

variable {η : Type}

/-- What is wrong with an item that comes when no call is outstanding. -/
def complaints (c : Connection η) (now : Time) : Framing.Decoded → List Anomaly
  | .error fault => [.ofFault fault]
  | .ok (.response r) => [(c.calls.takeForResponse now r.id).1.complaint r.id]
  | .ok (.notification n) =>
    if (c.handlersOf n.method).isEmpty && c.strict && !Method.isOptional n.method then
      [.unhandledNotification n.method]
    else []
  | .ok (.request _) => []

def Moment.complaints (m : Moment η) : List Anomaly :=
  match m.act with
  | .item item => m.before.complaints m.time item
  | _ => []

/-! ### After the end -/

@[simp] theorem events_reply (c : Connection η) (r : Response) : events (c.reply r).2 = [] := by
  unfold reply
  split
  · rfl
  · exact events_tryWrite c _

@[simp] theorem events_receiveNotification (c : Connection η) (now : Time) (n : Notification) :
    events (c.receiveNotification n).2 = (c.complaints now (.ok (.notification n))).map .anomaly := by
  have heard : events ((c.handlersOf n.method).map fun h => (.noticed h n : Output η)) = [] := by
    simp [events, List.filterMap_map, Function.comp_def, Output.event?]
  simp only [receiveNotification, complaints, events_append, heard]
  split <;> rfl

theorem events_filed {c : Connection η} {out : List (Output η)} (h : c.Filed out) :
    events out = [] := by
  cases h <;> rfl

/-- A response to nothing that is outstanding is reported. -/
theorem events_receiveResponse {c : Connection η} (idle : c.calls.calls = []) (now : Time)
    (r : Response) :
    events (c.receiveResponse now r).2 = (c.complaints now (.ok (.response r))).map .anomaly := by
  simp only [receiveResponse, complaints]
  cases taken : c.calls.takeForResponse now r.id with
  | mk found calls =>
      cases found with
      | outstanding n call =>
          have held := (CallTable.takeForResponse_taken taken).2.held
          rw [CallTable.call?, idle] at held
          cases held
      | _ => rfl

/-- An item that comes when no call is outstanding is complained of, if anything. -/
theorem events_item {c : Connection η} (idle : c.calls.calls = []) (now : Time)
    (item : Framing.Decoded) :
    events (receive now item c).2 = (c.complaints now item).map .anomaly := by
  cases item with
  | error fault => rfl
  | ok m =>
      cases m with
      | response r => exact events_receiveResponse idle now r
      | notification n => exact events_receiveNotification c now n
      | request r =>
          change events (c.receiveRequest r).2 = []
          unfold receiveRequest
          split
          · rfl
          · exact events_reply c _

theorem Deed.events_input {now : Time} {c d : Connection η} {input : Input η} {out : List (Output η)}
    (deed : Deed now c (.input input) d out) (gone : c.state = .exited) : events out = [] := by
  cases deed with
  | issued valid allowed up =>
      rw [gone] at allowed
      cases allowed
  | left running up => exact absurd gone running
  | gaveUp taken => simp [Output.event?]
  | filed filing turn told => exact events_filed told
  | finished first => exact events_reply c _
  | lapsed taken lapse =>
      rcases lapse.passes with ⟨-, silent⟩ | ⟨waiting, -⟩
      · exact silent
      · cases gone.symm.trans waiting
  | ceased running ending => exact absurd gone running
  | shut gone => exact events_closing c
  | _ => rfl

theorem Moment.events_out {m : Moment η} (gone : m.before.state = .exited)
    (idle : m.before.calls.calls = []) : events m.out = m.complaints.map .anomaly := by
  obtain ⟨now, c, act⟩ := m
  cases act with
  | feed bytes => rfl
  | item item => exact events_item idle now item
  | input input => exact (Moment.dealt ⟨now, c, .input input⟩).events_input gone

/-! ### The end itself -/

/-- The deed that ends a session publishes the end, and nothing after it. -/
theorem Deed.events_end {now : Time} {c d : Connection η} {act : Act η} {out : List (Output η)}
    (deed : Deed now c act d out) (running : c.state ≠ .exited) (gone : d.state = .exited) :
    ∃ reason, events out = [.stateChanged .exited, .exited reason] := by
  cases deed with
  | idle alike unheard =>
      have same : d.state = c.state := congrArg Session.state alike.session
      exact absurd (same.symm.trans gone) running
  | @issued method params timeout valid allowed up =>
      refine absurd gone ?_
      change (c.sessionAfter method).state ≠ .exited
      rcases requestAllowed_cases allowed with ⟨-, -, moves⟩ | ⟨-, -, moves | moves⟩ <;>
        simp only [sessionAfter, moves, Option.getD_some, Option.getD_none]
      · exact fun same => by cases same
      · exact running
      · exact fun same => by cases same
  | left _ up => exact ⟨c.exitReason, by simp [Output.event?]⟩
  | shaken taken handshake usable => cases gone
  | @refused r id call calls failure taken handshake fails =>
      exact ⟨.initializeFailed failure.message, by simp [Output.event?]⟩
  | lapsed taken lapse =>
      rcases lapse.passes with ⟨session, -⟩ | ⟨-, why, -, told⟩
      · exact absurd ((congrArg Session.state session).symm.trans gone) running
      · exact ⟨_, told⟩
  | @ceased input reason failure _ ending => exact ⟨reason, by simp⟩
  | shut already => exact absurd already running
  | _ => exact absurd gone running

/-- On a path from a running session to one that has ended lies the moment at which it ends. -/
theorem Path.crossing {c d : Connection η} {ms : List (Moment η)} (path : Path c ms d)
    (running : c.state ≠ .exited) (gone : d.state = .exited) :
    ∃ early m late, ms = early ++ m :: late ∧ m.before.state ≠ .exited ∧ m.next.state = .exited := by
  induction path with
  | nil => exact absurd gone running
  | @cons m rest d later ih =>
      by_cases here : m.next.state = .exited
      · exact ⟨[], m, rest, rfl, running, here⟩
      · obtain ⟨early, n, late, rfl, before, next⟩ := ih here gone
        exact ⟨m :: early, n, late, rfl, before, next⟩

theorem Path.exited_stays {c d : Connection η} {ms : List (Moment η)} (path : Path c ms d)
    (gone : c.state = .exited) : ∀ m ∈ ms, m.before.state = .exited := by
  induction path with
  | nil => exact fun m held => by cases held
  | @cons m rest d later ih =>
      have next : m.next.state = .exited :=
        (congrArg Session.state (m.dealt.exited_stays gone)).trans gone
      intro n held
      rcases List.mem_cons.mp held with rfl | after
      · exact gone
      · exact ih next n after

theorem events_written {ms : List (Moment η)}
    (each : ∀ m ∈ ms, events m.out = m.complaints.map .anomaly) :
    events (written ms) = (ms.flatMap Moment.complaints).map .anomaly := by
  induction ms with
  | nil => rfl
  | cons m ms ih =>
      have here := each m List.mem_cons_self
      have rest := ih fun n held => each n (List.mem_cons_of_mem _ held)
      have split : written (m :: ms) = m.out ++ written ms := rfl
      rw [split, events_append, here, rest, List.flatMap_cons, List.map_append]

/-! ### Last words -/

/-- What is known of a connection at any moment of a history, and of what it published before. -/
structure Chronicled (c : Connection η) (ms : List (Moment η)) : Prop where
  sound : c.calls.Sound
  fits : Fitting c.state c.calls.calls
  informed : Informed c.session
  heralded : Heralded c.session (events (written ms))

theorem fresh_chronicled (config : ClientConfig) : Chronicled (fresh config : Connection η) [] :=
  ⟨CallTable.fresh_sound _, fitting_nil _, fresh_informed, fun _ held => by cases held⟩

theorem Chronicled.moment {m : Moment η} {ms : List (Moment η)} (h : Chronicled m.before ms) :
    Chronicled m.next (ms ++ [m]) := by
  have passes := m.dealt.passes
  refine ⟨(deed_accounted h.sound m.dealt).sound h.sound, h.fits.deed h.sound m.dealt,
    passes.informed h.informed, ?_⟩
  rw [written_append, written_singleton, events_append]
  exact passes.heralded h.informed h.heralded

theorem chronicled_at {config : ClientConfig} {history : List (Time × Input η)}
    {early late : List (Moment η)} {m : Moment η} (split : past config history = early ++ m :: late) :
    Chronicled m.before early :=
  past_at (P := Chronicled) (fresh_chronicled config) (fun _ _ _ held => held.moment) split

/-- How the events of a history end that tells of the end of its session. -/
structure LastWords (config : ClientConfig) (history : List (Time × Input η)) (reason : ExitReason)
    (told : List Event) (late : List (Moment η)) : Prop where
  /-- No end is told of before, and after the end nothing but complaints about later items. -/
  events : events (outputs config history) =
    told ++ [.stateChanged .exited, .exited reason] ++ (late.flatMap Moment.complaints).map .anomaly
  once : ∀ other, .exited other ∉ told
  /-- The later items are those that come when the session has ended. -/
  past : ∃ early m, past config history = early ++ m :: late ∧ m.before.state ≠ .exited ∧
    ∀ n ∈ late, n.before.state = .exited
  /-- The end is the last event unless there is something to complain of. -/
  last : (Connection.events (outputs config history)).getLast? = some (.exited reason) ↔
    ∀ n ∈ late, n.complaints = []

theorem last_words (config : ClientConfig) (history : List (Time × Input η)) {reason : ExitReason}
    (ended : .exited reason ∈ events (outputs config history)) :
    ∃ told late, LastWords config history reason told late := by
  have gone : (after config history).state = .exited := by
    by_contra running
    exact (lifecycle config history).unheralded running reason ended
  have path := past_path config history
  obtain ⟨early, m, late, split, running, next⟩ := path.crossing (fun s => by cases s) gone
  have late_gone : ∀ n ∈ late, n.before.state = .exited := by
    rw [split] at path
    exact path.split.2.exited_stays next
  have complained : ∀ n ∈ late, events n.out = n.complaints.map .anomaly := by
    intro n held
    obtain ⟨between, rest, rfl⟩ := List.append_of_mem held
    have whole : past config history = (early ++ m :: between) ++ n :: rest := by
      rw [split, List.append_assoc, List.cons_append]
    have idle := (chronicled_at whole).fits.idle (.inr (late_gone n held))
    exact Moment.events_out (late_gone n held) idle
  obtain ⟨other, here⟩ := m.dealt.events_end running next
  have before := chronicled_at split
  have unheralded : ∀ other, .exited other ∉ events (written early) := by
    simpa only [Heralded, before.informed.reason_eq_none running] using before.heralded
  have all : events (outputs config history) = events (written early) ++
      [.stateChanged .exited, .exited other] ++ (late.flatMap Moment.complaints).map .anomaly := by
    have parts : written (early ++ m :: late) = written early ++ (m.out ++ written late) :=
      written_append early (m :: late)
    rw [← written_past, split, parts, events_append, events_append, here,
      events_written complained, List.append_assoc]
  -- No event but this one tells of an end.
  have same : other = reason := by
    rw [all] at ended
    simpa [unheralded reason, eq_comm] using ended
  subst same
  refine ⟨_, late, all, unheralded, ⟨early, m, split, running, late_gone⟩, ?_⟩
  rw [all, ← List.flatMap_eq_nil_iff]
  cases late.flatMap Moment.complaints using List.reverseRecOn with
  | nil => simp
  | append_singleton others a =>
      rw [List.map_append, List.map_singleton, ← List.append_assoc, List.getLast?_concat]
      simp

/-- The server refuses the handshake, and goes on at once with an answer to a request it never got. -/
def disowned : List (Time × Input Unit) :=
  [(0, .command (.request Method.initializeRequest none none)),
    (1, .received (Framing.frame (Utf8.encode
        "\x7b\"jsonrpc\":\"2.0\",\"id\":1,\"error\":\x7b\"code\":-1,\"message\":\"no\"\x7d\x7d")
      ++ Framing.frame (Utf8.encode
        "\x7b\"jsonrpc\":\"2.0\",\"id\":9,\"result\":null\x7d")))]

/-- The id of the answer that is complained of after two events and the end. -/
def complained? : List Event → Option Rpc.Id
  | [_, _, .exited _, .anomaly (.unsolicitedResponse id)] => some id
  | _ => none

theorem disowned_published : ∃ told reason, events (outputs .standard disowned) =
    told ++ [.exited reason, .anomaly (.unsolicitedResponse (.number 9))] := by
  have complained : complained? (events (outputs .standard disowned)) = some (.number 9) := by
    decide +kernel
  generalize events (outputs .standard disowned) = published at complained ⊢
  unfold complained? at complained
  split at complained
  · obtain rfl := Option.some.inj complained
    exact ⟨[_, _], _, rfl⟩
  · cases complained

theorem exited_not_last : ¬ ∀ (config : ClientConfig) (history : List (Time × Input Unit))
    (told late : List Event) (reason : ExitReason),
    events (outputs config history) = told ++ .exited reason :: late → late = [] := by
  intro claim
  obtain ⟨told, reason, published⟩ := disowned_published
  cases claim .standard disowned told _ reason published

theorem last_words_disowned : ∃ reason, .exited reason ∈ events (outputs .standard disowned) ∧
    ∃ told late, LastWords .standard disowned reason told late := by
  obtain ⟨told, reason, published⟩ := disowned_published
  have ended : .exited reason ∈ events (outputs .standard disowned) := by simp [published]
  exact ⟨reason, ended, last_words .standard disowned ended⟩

end Connection
end ServerProbe
