import ServerProbe.Proofs.Connection.Deed
/-!
What the outputs of a connection show: the requests that were written, the calls that were resolved
and the events that were published. Most deeds are quiet: they show none of these but anomalies.
-/

namespace ServerProbe

open Rpc (Message Notification Request Response)

variable {η : Type}

namespace Output

def request? : Output η → Option Request
  | .wrote (.request r) => some r
  | _ => none

def resolution? : Output η → Option (Nat × Answered)
  | .resolved id answer => some (id, answer)
  | _ => none

def event? : Output η → Option Event
  | .published e => some e
  | _ => none

def message? : Output η → Option Message
  | .wrote m => some m
  | _ => none

/-- Neither a request, nor the end of a call, nor an event in the life of the session. -/
def Quiet : Output η → Prop
  | .wrote (.request _) | .resolved _ _ | .published (.stateChanged _) | .published (.exited _) => False
  | _ => True

end Output

namespace Connection

/-- The requests among the outputs. -/
def requests (out : List (Output η)) : List Request := out.filterMap Output.request?

/-- The calls that the outputs resolve, and how. -/
def resolutions (out : List (Output η)) : List (Nat × Answered) := out.filterMap Output.resolution?

/-- The events among the outputs. -/
def events (out : List (Output η)) : List Event := out.filterMap Output.event?

@[simp] theorem requests_append (a b : List (Output η)) :
    requests (a ++ b) = requests a ++ requests b := List.filterMap_append

@[simp] theorem resolutions_append (a b : List (Output η)) :
    resolutions (a ++ b) = resolutions a ++ resolutions b := List.filterMap_append

@[simp] theorem events_append (a b : List (Output η)) : events (a ++ b) = events a ++ events b :=
  List.filterMap_append

@[simp] theorem requests_nil : requests ([] : List (Output η)) = [] := rfl

@[simp] theorem resolutions_nil : resolutions ([] : List (Output η)) = [] := rfl

@[simp] theorem events_nil : events ([] : List (Output η)) = [] := rfl

@[simp] theorem requests_cons (o : Output η) (out : List (Output η)) :
    requests (o :: out) = o.request?.toList ++ requests out := by
  cases h : o.request? <;> simp [requests, h]

@[simp] theorem resolutions_cons (o : Output η) (out : List (Output η)) :
    resolutions (o :: out) = o.resolution?.toList ++ resolutions out := by
  cases h : o.resolution? <;> simp [resolutions, h]

@[simp] theorem events_cons (o : Output η) (out : List (Output η)) :
    events (o :: out) = o.event?.toList ++ events out := by
  cases h : o.event? <;> simp [events, h]

theorem mem_requests {out : List (Output η)} {r : Request} :
    r ∈ requests out ↔ .wrote (.request r) ∈ out := by
  simp only [requests, List.mem_filterMap]
  constructor
  · rintro ⟨o, held, shown⟩
    unfold Output.request? at shown
    split at shown
    · rwa [← Option.some.inj shown]
    · cases shown
  · exact fun held => ⟨_, held, rfl⟩

theorem mem_resolutions {out : List (Output η)} {id : Nat} {answer : Answered} :
    (id, answer) ∈ resolutions out ↔ .resolved id answer ∈ out := by
  simp only [resolutions, List.mem_filterMap]
  constructor
  · rintro ⟨o, held, shown⟩
    unfold Output.resolution? at shown
    split at shown
    · obtain ⟨rfl, rfl⟩ := Prod.mk.inj (Option.some.inj shown)
      exact held
    · cases shown
  · exact fun held => ⟨_, held, rfl⟩

/-! ### Quiet outputs -/

def Quiet (out : List (Output η)) : Prop := ∀ o ∈ out, o.Quiet

theorem Quiet.append {a b : List (Output η)} (ha : Quiet a) (hb : Quiet b) : Quiet (a ++ b) :=
  fun o held => (List.mem_append.mp held).elim (ha o) (hb o)

theorem quiet_nil : Quiet ([] : List (Output η)) := fun _ held => by cases held

theorem quiet_singleton {o : Output η} (h : o.Quiet) : Quiet [o] := by
  intro p held
  obtain rfl := List.mem_singleton.mp held
  exact h

theorem Quiet.requests {out : List (Output η)} (h : Quiet out) : requests out = [] := by
  refine List.filterMap_eq_nil_iff.mpr fun o held => ?_
  have quiet := h o held
  unfold Output.request?
  split
  · exact quiet.elim
  · rfl

theorem Quiet.resolutions {out : List (Output η)} (h : Quiet out) : resolutions out = [] := by
  refine List.filterMap_eq_nil_iff.mpr fun o held => ?_
  have quiet := h o held
  unfold Output.resolution?
  split
  · exact quiet.elim
  · rfl

/-- The events among quiet outputs are anomalies. -/
theorem Quiet.events {out : List (Output η)} (h : Quiet out) :
    ∀ e ∈ events out, ∃ anomaly, e = .anomaly anomaly := by
  intro e held
  obtain ⟨o, held, shown⟩ := List.mem_filterMap.mp held
  have quiet := h o held
  unfold Output.event? at shown
  split at shown
  · rename_i published
    rw [← Option.some.inj shown]
    cases published with
    | anomaly a => exact ⟨a, rfl⟩
    | stateChanged s => exact quiet.elim
    | exited r => exact quiet.elim
  · cases shown

theorem tryWrite_quiet (c : Connection η) {m : Message} (h : ∀ r, m ≠ .request r) :
    Quiet (c.tryWrite m) := by
  unfold tryWrite
  split
  · rename_i out written
    obtain ⟨-, rfl⟩ := write_eq_ok written
    cases m with
    | request r => exact absurd rfl (h r)
    | notification n => exact quiet_singleton trivial
    | response r => exact quiet_singleton trivial
  · exact quiet_nil

theorem notice_ne_request (method : String) (params : Json) (r : Request) :
    notice method params ≠ .request r := fun h => by cases h

@[simp] theorem events_tryWrite (c : Connection η) (m : Message) : events (c.tryWrite m) = [] := by
  unfold tryWrite
  split
  · rename_i out written
    obtain ⟨-, rfl⟩ := write_eq_ok written
    rfl
  · rfl

@[simp] theorem events_cancelNotice (c : Connection η) (id : Nat) : events (c.cancelNotice id) = [] := by
  unfold cancelNotice
  split
  · exact events_tryWrite c _
  · rfl

theorem cancelNotice_quiet (c : Connection η) (id : Nat) : Quiet (c.cancelNotice id) := by
  unfold cancelNotice
  split
  · exact tryWrite_quiet c (notice_ne_request _ _)
  · exact quiet_nil

theorem reply_quiet (c : Connection η) (r : Response) : Quiet (c.reply r).2 := by
  unfold reply
  split
  · exact quiet_nil
  · exact tryWrite_quiet c fun _ h => by cases h

theorem filed_quiet {c : Connection η} {out : List (Output η)} (h : c.Filed out) : Quiet out := by
  cases h with
  | silent => exact quiet_nil
  | told method params up allowed file => exact quiet_singleton trivial

theorem receiveNotification_quiet (c : Connection η) (n : Notification) :
    Quiet (c.receiveNotification n).2 := by
  unfold receiveNotification
  refine Quiet.append (Quiet.append ?_ ?_) ?_
  · intro o held
    obtain ⟨handler, -, rfl⟩ := List.mem_map.mp held
    trivial
  · split
    · exact quiet_singleton trivial
    · exact quiet_nil
  · exact quiet_singleton trivial

theorem closing_quiet (c : Connection η) : Quiet c.closing := by
  unfold closing
  split
  · exact quiet_nil
  · exact quiet_singleton trivial

/-! ### Changes of state -/

@[simp] theorem requests_announced (state : Option Session.State) :
    requests (announced state : List (Output η)) = [] := by
  cases state <;> rfl

@[simp] theorem resolutions_announced (state : Option Session.State) :
    resolutions (announced state : List (Output η)) = [] := by
  cases state <;> rfl

@[simp] theorem events_announced (state : Option Session.State) :
    events (announced state : List (Output η)) = state.toList.map .stateChanged := by
  cases state <;> rfl

@[simp] theorem events_closing (c : Connection η) : events c.closing = [] := by
  unfold closing
  split <;> rfl

@[simp] theorem events_farewell (c : Connection η) (reason : ExitReason) (failure : Failure) :
    events (c.farewell reason failure) = [.stateChanged .exited, .exited reason] := by
  have none : events (c.calls.outstanding.map fun id => (.resolved id (.error failure) : Output η)) = [] := by
    simp [events, List.filterMap_map, Function.comp_def, Output.event?]
  simp [farewell, none, Output.event?]

@[simp] theorem requests_farewell (c : Connection η) (reason : ExitReason) (failure : Failure) :
    requests (c.farewell reason failure) = [] := by
  have silent : requests (c.calls.outstanding.map fun id => (.resolved id (.error failure) : Output η)) = [] := by
    simp [requests, List.filterMap_map, Function.comp_def, Output.request?]
  simp [farewell, silent, (closing_quiet c).requests, Output.request?]

@[simp] theorem resolutions_farewell (c : Connection η) (reason : ExitReason) (failure : Failure) :
    resolutions (c.farewell reason failure) =
      c.calls.outstanding.map fun id => (id, .error failure) := by
  have all : resolutions (c.calls.outstanding.map fun id => (.resolved id (.error failure) : Output η))
      = c.calls.outstanding.map fun id => (id, .error failure) := by
    simp [resolutions, List.filterMap_map, Function.comp_def, Output.resolution?]
  simp only [farewell, resolutions_append, all, (closing_quiet c).resolutions]
  simp [Output.resolution?]

/-! ### Messages -/

/-- The messages among the outputs. -/
def sent (out : List (Output η)) : List Message := out.filterMap Output.message?

@[simp] theorem sent_nil : sent ([] : List (Output η)) = [] := rfl

@[simp] theorem sent_append (a b : List (Output η)) : sent (a ++ b) = sent a ++ sent b :=
  List.filterMap_append

@[simp] theorem sent_cons (o : Output η) (out : List (Output η)) :
    sent (o :: out) = o.message?.toList ++ sent out := by
  cases h : o.message? <;> simp [sent, h]

theorem mem_sent {out : List (Output η)} {m : Message} : m ∈ sent out ↔ .wrote m ∈ out := by
  simp only [sent, List.mem_filterMap]
  constructor
  · rintro ⟨o, held, shown⟩
    unfold Output.message? at shown
    split at shown
    · rwa [← Option.some.inj shown]
    · cases shown
  · intro held
    exact ⟨_, held, rfl⟩

theorem tryWrite_up {c : Connection η} (up : c.link = .up) (m : Message) :
    c.tryWrite m = [.wrote m] := by
  simp only [tryWrite, write, up]

theorem tryWrite_down {c : Connection η} (down : c.link ≠ .up) (m : Message) : c.tryWrite m = [] := by
  unfold tryWrite
  split
  · rename_i out written
    exact absurd (write_eq_ok written).1 down
  · rfl

theorem cancelNotice_of_down {c : Connection η} (down : c.link ≠ .up) (id : Nat) :
    c.cancelNotice id = [] := by
  unfold cancelNotice
  split
  · exact tryWrite_down down _
  · rfl

/-- A cancel notice is written where the state allows it. -/
theorem cancelNotice_of_up {c : Connection η} (up : c.link = .up) (id : Nat) :
    c.cancelNotice id =
      if Session.notificationAllowed c.state Method.cancelRequest then
        [.wrote (notice Method.cancelRequest (Payload.cancel id))]
      else [] := by
  unfold cancelNotice Session.checkNotification state
  by_cases allowed : Session.notificationAllowed c.session.state Method.cancelRequest = true
  · simp only [allowed, if_true, tryWrite_up up]
  · simp only [allowed, Bool.false_eq_true, if_false]

theorem reply_of_exited {c : Connection η} (gone : c.state = .exited) (r : Response) :
    (c.reply r).2 = [] := by
  simp only [reply, gone, Session.State.isExited, beq_self_eq_true, if_true]

theorem reply_of_down {c : Connection η} (down : c.link ≠ .up) (r : Response) : (c.reply r).2 = [] := by
  unfold reply
  split
  · rfl
  · exact tryWrite_down down _

theorem reply_of_up {c : Connection η} (running : c.state ≠ .exited) (up : c.link = .up)
    (r : Response) : (c.reply r).2 = [.wrote (.response r)] := by
  have open_session : c.state.isExited = false := by
    simpa only [Session.State.isExited, beq_eq_false_iff_ne] using running
  simp only [reply, open_session, Bool.false_eq_true, if_false, tryWrite_up up]

@[simp] theorem sent_announced (state : Option Session.State) :
    sent (announced state : List (Output η)) = [] := by
  cases state <;> rfl

@[simp] theorem sent_closing (c : Connection η) : sent c.closing = [] := by
  unfold closing
  split <;> rfl

@[simp] theorem sent_farewell (c : Connection η) (reason : ExitReason) (failure : Failure) :
    sent (c.farewell reason failure) = [] := by
  have silent : sent (c.calls.outstanding.map fun id => (.resolved id (.error failure) : Output η)) = [] := by
    simp [sent, List.filterMap_map, Function.comp_def, Output.message?]
  simp [farewell, silent, Output.message?]

@[simp] theorem sent_receiveNotification (c : Connection η) (n : Notification) :
    sent (c.receiveNotification n).2 = [] := by
  have heard : sent ((c.handlersOf n.method).map fun h => (.noticed h n : Output η)) = [] := by
    simp [sent, List.filterMap_map, Function.comp_def, Output.message?]
  unfold receiveNotification
  rw [sent_append, sent_append, heard]
  split <;> rfl

end Connection
end ServerProbe
