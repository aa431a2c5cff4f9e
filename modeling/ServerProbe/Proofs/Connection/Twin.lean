import ServerProbe.Proofs.Call.Quarantine
import ServerProbe.Proofs.Connection.Moment
/-!
Connections that differ in nothing but their decoders and what the quarantines of their calls have let
go. Whatever happens to both, they do the same.
-/

namespace ServerProbe.Connection

open Rpc (Id Message Notification Outcome Request Response)

variable {η : Type}

def Twin (now : Time) (c d : Connection η) : Prop :=
  ∃ calls decoder, c.calls.Agree now calls ∧ d = { c with calls, decoder }

/-- Turns with the same outputs that end in twins. -/
def Twins (now : Time) (t u : Turn η) : Prop := u.2 = t.2 ∧ Twin now t.1 u.1

variable {now later : Time} {c d : Connection η}

theorem Twin.refl (now : Time) (c : Connection η) : Twin now c c :=
  ⟨c.calls, c.decoder, .refl now _, rfl⟩

theorem Twin.trans {e : Connection η} (first : Twin now c d) (second : Twin now d e) : Twin now c e := by
  obtain ⟨calls, decoder, agree, rfl⟩ := first
  obtain ⟨calls', decoder', agree', rfl⟩ := second
  exact ⟨calls', decoder', agree.trans agree', rfl⟩

theorem Twin.symm (twin : Twin now c d) : Twin now d c := by
  obtain ⟨calls, decoder, agree, rfl⟩ := twin
  exact ⟨c.calls, c.decoder, agree.symm, rfl⟩

theorem Twin.mono (twin : Twin now c d) (order : now ≤ later) : Twin later c d := by
  obtain ⟨calls, decoder, agree, rfl⟩ := twin
  exact ⟨calls, decoder, agree.mono order, rfl⟩

theorem Twin.fed (now : Time) (c : Connection η) (decoder : Framing.Decoder) :
    Twin now c { c with decoder } := ⟨c.calls, decoder, .refl now _, rfl⟩

theorem Twin.state (twin : Twin now c d) : d.state = c.state := by
  obtain ⟨calls, decoder, agree, rfl⟩ := twin
  rfl

theorem Twin.turn (twin : Twin now c d) (out : List (Output η)) : Twins now (c, out) (d, out) :=
  ⟨rfl, twin⟩

theorem Twins.andThen {t u : Turn η} (first : Twins now t u) {f g : Connection η → Turn η}
    (second : Twins now (f t.1) (g u.1)) : Twins now (t.andThen f) (u.andThen g) := by
  refine ⟨?_, second.2⟩
  simp only [Turn.andThen, first.1, second.1]

theorem each_twins {α : Type} {turn : α → Connection η → Turn η}
    (step : ∀ a {c d : Connection η}, Twin now c d → Twins now (turn a c) (turn a d)) (items : List α)
    {c d : Connection η} (twin : Twin now c d) :
    Twins now (Turn.each turn items c) (Turn.each turn items d) := by
  induction items generalizing c d with
  | nil => exact twin.turn []
  | cons a items ih =>
      have first := step a twin
      exact first.andThen (ih first.2)

/-! ### What depends on neither the calls nor the decoder -/

section Aside

variable (c : Connection η) (calls : CallTable) (decoder : Framing.Decoder)

theorem state_aside : state { c with calls, decoder } = c.state := rfl

theorem write_aside (m : Message) : write { c with calls, decoder } m = c.write m := rfl

theorem tryWrite_aside (m : Message) : tryWrite { c with calls, decoder } m = c.tryWrite m := rfl

theorem defaultTimeout_aside (method : String) :
    defaultTimeout { c with calls, decoder } method = c.defaultTimeout method := rfl

end Aside

/-! ### Ends -/

theorem terminate_twins (twin : Twin now c d) (reason : ExitReason) (failure : Failure) :
    Twins now (c.terminate reason failure) (d.terminate reason failure) := by
  obtain ⟨calls, decoder, agree, rfl⟩ := twin
  simp only [terminate]
  split
  · exact ⟨rfl, calls, decoder, agree, rfl⟩
  · refine ⟨?_, calls.clear, decoder, agree.clear, rfl⟩
    simp only [CallTable.outstanding, agree.calls]

theorem lose_twins (twin : Twin now c d) (reason : String) :
    Twins now (c.lose reason) (d.lose reason) := by
  unfold lose
  rw [twin.state]
  split
  · exact twin.turn []
  · exact terminate_twins twin _ _

theorem serverExit_twins (twin : Twin now c d) (status : ExitStatus) :
    Twins now (c.serverExit status) (d.serverExit status) := by
  unfold serverExit
  rw [twin.state]
  split
  · exact twin.turn []
  · exact terminate_twins twin _ _

/-! ### Commands -/

theorem sendRequest_twins (twin : Twin now c d) (method : String) (params : Option Json)
    (timeout : Option Span) :
    Twins now (c.sendRequest now method params timeout).2 (d.sendRequest now method params timeout).2 := by
  obtain ⟨calls, decoder, agree, rfl⟩ := twin
  unfold sendRequest
  dsimp only
  split
  · exact ⟨rfl, calls, decoder, agree, rfl⟩
  · exact ⟨rfl, calls, decoder, agree, rfl⟩
  · obtain ⟨id, agree⟩ := agree.insert now method (timeout <|> c.defaultTimeout method)
    simp only [defaultTimeout_aside, write_aside, state_aside, id]
    split
    · exact ⟨rfl, _, decoder, agree.forget _, rfl⟩
    · split
      · exact ⟨rfl, _, decoder, agree, rfl⟩
      · exact ⟨rfl, _, decoder, agree, rfl⟩

theorem sendNotification_twins (twin : Twin now c d) (method : String) (params : Option Json) :
    Twins now (c.sendNotification method params).2 (d.sendNotification method params).2 := by
  have again := twin
  obtain ⟨calls, decoder, agree, rfl⟩ := twin
  unfold sendNotification
  simp only [write_aside]
  split
  · exact again.turn []
  · exact again.turn []
  · split
    · exact again.turn []
    · split
      · exact (again.turn _).andThen (terminate_twins again _ _)
      · exact ⟨rfl, again⟩

theorem cancel_twins (twin : Twin now c d) (id : Id) :
    Twins now (c.cancel now id).2 (d.cancel now id).2 := by
  obtain ⟨calls, decoder, agree, rfl⟩ := twin
  have same : ((CallTable.number? id).bind fun n => (calls.cancel now n).map fun r => (n, r.2)) =
      (CallTable.number? id).bind fun n => (c.calls.cancel now n).map fun r => (n, r.2) := by
    simp only [agree.cancel]
  unfold cancel
  rw [same]
  split
  · exact ⟨rfl, calls, decoder, agree, rfl⟩
  · exact ⟨rfl, _, decoder, .refl now _, rfl⟩

theorem openDocument_twins (twin : Twin now c d) (uri language text : String) :
    Twins now (c.openDocument uri language text).2 (d.openDocument uri language text).2 := by
  obtain ⟨calls, decoder, agree, rfl⟩ := twin
  unfold openDocument
  simp only [write_aside]
  split
  · exact ⟨rfl, calls, decoder, agree, rfl⟩
  · split
    · exact ⟨rfl, calls, decoder, agree, rfl⟩
    · split
      · exact ⟨rfl, calls, decoder, agree, rfl⟩
      · exact ⟨rfl, calls, decoder, agree, rfl⟩

theorem changeDocument_twins (twin : Twin now c d) (uri text : String) (base : Option Int32) :
    Twins now (c.changeDocument uri text base).2 (d.changeDocument uri text base).2 := by
  obtain ⟨calls, decoder, agree, rfl⟩ := twin
  unfold changeDocument
  dsimp only
  split
  · exact ⟨rfl, calls, decoder, agree, rfl⟩
  · split
    · exact ⟨rfl, calls, decoder, agree, rfl⟩
    · split
      · exact ⟨rfl, calls, decoder, agree, rfl⟩
      · rename_i version documents changed
        rw [write_aside { c with documents } calls decoder]
        split
        · exact ⟨rfl, calls, decoder, agree, rfl⟩
        · exact ⟨rfl, calls, decoder, agree, rfl⟩

theorem closeDocument_twins (twin : Twin now c d) (uri : String) :
    Twins now (c.closeDocument uri).2 (d.closeDocument uri).2 := by
  obtain ⟨calls, decoder, agree, rfl⟩ := twin
  unfold closeDocument
  dsimp only
  generalize (if c.documents.count uri == 1 then c.session.checkNotification Method.didClose
    else .ok ()) = gate
  cases c.documents.close uri with
  | error fault => exact ⟨rfl, calls, decoder, agree, rfl⟩
  | ok closed =>
      obtain ⟨last, documents⟩ := closed
      cases gate with
      | error failure => exact ⟨rfl, calls, decoder, agree, rfl⟩
      | ok _ =>
          cases last with
          | false => exact ⟨rfl, calls, decoder, agree, rfl⟩
          | true =>
              dsimp only
              rw [write_aside { c with documents } calls decoder]
              split
              · exact ⟨rfl, calls, decoder, agree, rfl⟩
              · exact ⟨rfl, calls, decoder, agree, rfl⟩

theorem register_twins (twin : Twin now c d) (method : String) (handler : η) :
    Twins now (c.register method handler, []) (d.register method handler, []) := by
  obtain ⟨calls, decoder, agree, rfl⟩ := twin
  unfold register
  split
  · exact ⟨rfl, calls, decoder, agree, rfl⟩
  · exact ⟨rfl, calls, decoder, agree, rfl⟩

theorem subscribe_twins (twin : Twin now c d) (method : String) (handler : η) :
    Twins now (c.subscribe method handler, []) (d.subscribe method handler, []) := by
  obtain ⟨calls, decoder, agree, rfl⟩ := twin
  unfold subscribe
  split
  · exact ⟨rfl, calls, decoder, agree, rfl⟩
  · exact ⟨rfl, calls, decoder, agree, rfl⟩

theorem handle_twins (twin : Twin now c d) (command : Command η) :
    Twins now (c.handle now command).2 (d.handle now command).2 := by
  cases command with
  | request method params timeout => exact sendRequest_twins twin method params timeout
  | notify method params => exact sendNotification_twins twin method params
  | onRequest method handler => exact register_twins twin method handler
  | onNotification method handler => exact subscribe_twins twin method handler
  | cancel id => exact cancel_twins twin id
  | setStrict strict =>
      obtain ⟨calls, decoder, agree, rfl⟩ := twin
      exact ⟨rfl, calls, decoder, agree, rfl⟩
  | outstanding => exact twin.turn []
  | openDocument uri language text => exact openDocument_twins twin uri language text
  | changeDocument uri text base => exact changeDocument_twins twin uri text base
  | closeDocument uri => exact closeDocument_twins twin uri
  | document uri => exact twin.turn []
  | close => exact terminate_twins twin _ _

/-! ### Items -/

theorem failHandshake_twins (twin : Twin now c d) (id : Nat) (failure : Failure) :
    Twins now (c.failHandshake id failure) (d.failHandshake id failure) :=
  (twin.turn _).andThen (terminate_twins twin _ _)

theorem completeHandshake_twins (twin : Twin now c d) (id : Nat) (result : Json) :
    Twins now (c.completeHandshake id result) (d.completeHandshake id result) := by
  have again := twin
  obtain ⟨calls, decoder, agree, rfl⟩ := twin
  unfold completeHandshake
  dsimp only
  split
  · exact failHandshake_twins again _ _
  · exact ⟨rfl, calls, decoder, agree, rfl⟩

theorem resolve_twins (twin : Twin now c d) (id : Nat) (call : Call) (outcome : Outcome) :
    Twins now (c.resolve id call outcome) (d.resolve id call outcome) := by
  obtain ⟨calls, decoder, agree, rfl⟩ := twin
  unfold resolve
  dsimp only
  generalize (c.acknowledged || (call.method == Method.shutdown && outcome.isOk)) = acknowledged
  have twin : Twin now { c with acknowledged } { c with calls, acknowledged, decoder } :=
    ⟨calls, decoder, agree, rfl⟩
  rw [state_aside { c with acknowledged } calls decoder]
  split
  · split
    · exact completeHandshake_twins twin _ _
    · exact failHandshake_twins twin _ _
  · exact twin.turn _

theorem receiveResponse_twins (twin : Twin now c d) (r : Response) :
    Twins now (c.receiveResponse now r) (d.receiveResponse now r) := by
  obtain ⟨calls, decoder, agree, rfl⟩ := twin
  obtain ⟨same, agree⟩ := agree.takeForResponse r.id
  unfold receiveResponse
  dsimp only
  rw [same]
  have twin : Twin now { c with calls := (c.calls.takeForResponse now r.id).2 }
      { c with calls := (calls.takeForResponse now r.id).2, decoder } := ⟨_, decoder, agree, rfl⟩
  split
  · exact resolve_twins twin _ _ _
  all_goals exact ⟨rfl, twin⟩

theorem reply_twins (twin : Twin now c d) (r : Response) : Twins now (c.reply r) (d.reply r) := by
  obtain ⟨calls, decoder, agree, rfl⟩ := twin
  unfold reply
  rw [state_aside c calls decoder, tryWrite_aside c calls decoder]
  split
  · exact ⟨rfl, calls, decoder, agree, rfl⟩
  · exact ⟨rfl, calls, decoder, agree, rfl⟩

theorem receiveRequest_twins (twin : Twin now c d) (r : Request) :
    Twins now (c.receiveRequest r) (d.receiveRequest r) := by
  have again := twin
  obtain ⟨calls, decoder, agree, rfl⟩ := twin
  unfold receiveRequest
  dsimp only
  split
  · exact ⟨rfl, calls, decoder, agree, rfl⟩
  · exact reply_twins again _

theorem finish_twins (twin : Twin now c d) (how : HandlerEnd) :
    Twins now (c.finish how) (d.finish how) := by
  obtain ⟨calls, decoder, agree, rfl⟩ := twin
  unfold finish
  dsimp only
  split
  · exact ⟨rfl, calls, decoder, agree, rfl⟩
  · rename_i p queue first
    have twin : Twin now { c with queue } { c with calls, queue, decoder } := ⟨calls, decoder, agree, rfl⟩
    exact reply_twins twin _

theorem receive_twins (twin : Twin now c d) (item : Framing.Decoded) :
    Twins now (receive now item c) (receive now item d) := by
  unfold receive
  split
  · exact receiveResponse_twins twin _
  · obtain ⟨calls, decoder, agree, rfl⟩ := twin
    exact ⟨rfl, calls, decoder, agree, rfl⟩
  · exact receiveRequest_twins twin _
  · exact ⟨rfl, twin⟩

/-! ### Time -/

theorem timeOut_twins (expired : Nat × Call) {c d : Connection η} (twin : Twin now c d) :
    Twins now (timeOut expired c) (timeOut expired d) := by
  have again := twin
  obtain ⟨calls, decoder, agree, rfl⟩ := twin
  refine (again.turn (c.cancelNotice expired.1)).andThen ?_
  dsimp only
  rw [state_aside c calls decoder]
  split
  · exact failHandshake_twins again _ _
  · exact again.turn _

theorem expire_twins (twin : Twin now c d) : Twins now (c.expire now) (d.expire now) := by
  obtain ⟨calls, decoder, agree, rfl⟩ := twin
  obtain ⟨same, agree⟩ := agree.expire
  unfold expire
  dsimp only
  rw [same]
  exact each_twins timeOut_twins _ ⟨_, decoder, agree, rfl⟩

/-! ### Acts -/

theorem perform_twins (twin : Twin now c d) (act : Act η) :
    Twins now (c.perform now act) (d.perform now act) := by
  cases act with
  | feed bytes =>
      obtain ⟨calls, decoder, agree, rfl⟩ := twin
      exact ⟨rfl, calls, _, agree, rfl⟩
  | item item => exact receive_twins twin item
  | input input =>
      cases input with
      | command command => exact handle_twins twin command
      | received bytes => exact twin.turn []
      | readEnded status =>
          cases status with
          | none => exact lose_twins twin _
          | some status => exact serverExit_twins twin status
      | readFailed reason => exact lose_twins twin reason
      | serverExited status => exact serverExit_twins twin status
      | transportEnded => exact lose_twins twin _
      | finished how => exact finish_twins twin how
      | deadline => exact expire_twins twin
      | writerLost =>
          obtain ⟨calls, decoder, agree, rfl⟩ := twin
          refine ⟨rfl, ?_⟩
          simp only [perform, step]
          split
          · exact ⟨calls, decoder, agree, rfl⟩
          · exact ⟨calls, decoder, agree, rfl⟩
      | abandoned => exact terminate_twins twin _ _

end ServerProbe.Connection
