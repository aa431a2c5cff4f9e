import ServerProbe.Proofs.Connection.Handshake
/-!
What a deed resolves calls with: the outcome of a response to the call, that it was cancelled, that
its deadline has come, or how the session ended. The answer to the handshake is a case of its own.
-/

namespace ServerProbe.Connection

open Rpc (Id Message Notification Outcome Request Response)

variable {η : Type}

/-! ### What resolves a call -/

/-- A failure as the caller sees it; that of the handshake is wrapped. -/
def wrapped (method : String) (failure : Failure) : Failure :=
  if method == Method.initializeRequest then .initializeFailed failure else failure

/-- The answer that a response gives to a call. The result of the handshake has to be usable. -/
def delivered (method : String) : Outcome → Answered
  | .error e => .error (wrapped method (.refused e))
  | .ok result =>
    if method == Method.initializeRequest then
      match Capabilities.ofResult result with
      | .error fault =>
        .error (.initializeFailed (.refused (.of Rpc.ErrorObject.invalidRequestCode fault.message)))
      | .ok _ => .ok result
    else .ok result

/-- How the outstanding calls fail when a session ends for a reason. -/
def FailsWith : ExitReason → Failure → Prop
  | .graceful, failure =>
    failure = .transportClosed "session exited" ∨
      failure = .transportClosed "connection closed by client" ∨
      failure = .transportClosed "client dropped"
  | .forced _, failure => failure = .transportClosed "session exited"
  | .initializeFailed _, failure => failure = .transportClosed "initialize failed"
  | .processExited status, failure => failure = .processExited status
  | .transportLost reason, failure => failure = .transportClosed reason

/-- Why a deed resolves a call, and with what. -/
inductive DeedCause (now : Time) (c : Connection η) (act : Act η) (d : Connection η) (id : Nat)
    (call : Call) : Answered → Prop
  | responded (r : Response) (item : act = .item (.ok (.response r))) (own : r.id = .number id) :
      DeedCause now c act d id call (delivered call.method r.outcome)
  | cancelled (command : act = .input (.command (.cancel (.number id)))) :
      DeedCause now c act d id call (.error (.cancelled (.number id)))
  | timedOut (input : act = .input .deadline) (due : CallTable.Due now call) :
      DeedCause now c act d id call (.error (wrapped call.method (lateness id call)))
  | ended (reason : ExitReason) (failure : Failure) (running : c.state ≠ .exited)
      (ceased : d.state = .exited) (recorded : d.session.reason = some reason)
      (fails : FailsWith reason failure) :
      DeedCause now c act d id call (.error failure)

theorem exitReason_fails (c : Connection η) :
    FailsWith c.exitReason (.transportClosed "session exited") := by
  unfold exitReason
  split
  · exact .inl rfl
  · rfl

theorem Ending.fails {input : Input η} {reason : ExitReason} {failure : Failure}
    (h : Ending input reason failure) : FailsWith reason failure := by
  cases h with
  | close => exact .inr (.inl rfl)
  | abandoned => exact .inr (.inr rfl)
  | _ => rfl

theorem mem_resolutions_farewell {c : Connection η} {reason : ExitReason} {failure : Failure}
    {id : Nat} {answer : Answered} (h : (id, answer) ∈ resolutions (c.farewell reason failure)) :
    id ∈ c.calls.ids ∧ answer = .error failure := by
  rw [resolutions_farewell, List.mem_map] at h
  obtain ⟨k, held, same⟩ := h
  obtain ⟨rfl, rfl⟩ := Prod.mk.inj same
  exact ⟨List.mem_reverse.mp held, rfl⟩

/-- What a lapsed call is resolved with, and what the others are when the handshake lapses. -/
theorem Lapse.cause {c d : Connection η} {expired : List (Nat × Call)} {out : List (Output η)}
    {id : Nat} {answer : Answered} (h : Lapse c expired d out) (fits : Fitting c.state expired)
    (shown : (id, answer) ∈ resolutions out) :
    (∃ call, (id, call) ∈ expired ∧ answer = .error (wrapped call.method (lateness id call))) ∨
      id ∈ c.calls.ids ∧ c.state ≠ .exited ∧
        (∃ why, d.state = .exited ∧ d.session.reason = some (.initializeFailed why)) ∧
        answer = .error (.transportClosed "initialize failed") := by
  induction h with
  | nil => cases shown
  | @plain c d own call rest out other later ih =>
      simp only [resolutions_append, (cancelNotice_quiet c own).resolutions, List.nil_append,
        resolutions_cons, Output.resolution?, Option.toList_some, List.singleton_append] at shown
      rcases List.mem_cons.mp shown with same | shown
      · obtain ⟨rfl, rfl⟩ := Prod.mk.inj same
        have named : call.method ≠ Method.initializeRequest := by
          intro named
          have waiting := (fits.own _ List.mem_cons_self).mp named
          simp [isHandshake, named, waiting] at other
        refine .inl ⟨call, List.mem_cons_self, ?_⟩
        simp only [wrapped, beq_iff_eq, named, if_false]
      · rcases ih (fits.sublist (List.sublist_cons_self _ _)) shown with ⟨call, held, same⟩ | others
        · exact .inl ⟨call, List.mem_cons_of_mem _ held, same⟩
        · exact .inr others
  | @handshake c d own call rest out failure own' failed later ih =>
      have waiting : c.state = .initializing := eq_of_beq (Bool.and_eq_true_iff.mp own').2
      have named : call.method = Method.initializeRequest := eq_of_beq (Bool.and_eq_true_iff.mp own').1
      -- No other call is outstanding during the handshake, so it lapses alone.
      have short := fits.single waiting
      obtain rfl : rest = [] := List.eq_nil_of_length_eq_zero (by simpa using short)
      cases later
      simp only [List.append_nil, resolutions_append, (cancelNotice_quiet c own).resolutions,
        List.nil_append, resolutions_cons, Output.resolution?, Option.toList_some,
        List.singleton_append] at shown
      rcases List.mem_cons.mp shown with same | shown
      · obtain ⟨rfl, rfl⟩ := Prod.mk.inj same
        refine .inl ⟨call, List.mem_cons_self, ?_⟩
        simp only [wrapped, named, beq_self_eq_true, if_true, failed]
      · obtain ⟨held, same⟩ := mem_resolutions_farewell shown
        exact .inr ⟨held, not_exited_of_isHandshake own', ⟨_, rfl, rfl⟩, same⟩

/-- What a response to the handshake gives. -/
theorem HandshakeFailure.delivered {outcome : Outcome} {failure : Failure}
    (h : HandshakeFailure outcome failure) :
    delivered Method.initializeRequest outcome = .error failure := by
  cases outcome with
  | error e =>
      rw [show failure = _ from h]
      rfl
  | ok result =>
      obtain ⟨fault, unusable, rfl⟩ := h
      simp only [Connection.delivered, beq_self_eq_true, if_true, unusable]

theorem delivered_plain {method : String} (other : method ≠ Method.initializeRequest)
    (outcome : Outcome) : delivered method outcome = answerOf outcome := by
  cases outcome with
  | error e => simp only [delivered, wrapped, beq_iff_eq, other, if_false, answerOf]
  | ok result => simp only [delivered, beq_iff_eq, other, if_false, answerOf]

/-- A deed resolves only calls that are outstanding, and each for a cause. -/
theorem Deed.cause {now : Time} {c d : Connection η} {act : Act η} {out : List (Output η)} {id : Nat}
    {answer : Answered} (sound : c.calls.Sound) (fits : Fitting c.state c.calls.calls)
    (deed : Deed now c act d out) (shown : (id, answer) ∈ resolutions out) :
    ∃ call, c.calls.call? id = some call ∧ DeedCause now c act d id call answer := by
  cases deed with
  | idle alike unheard => cases shown
  | unwritten allowed down => cases shown
  | issued valid allowed up => simp [Output.resolution?] at shown
  | noted valid allowed up stays => cases shown
  | left running up =>
      obtain ⟨held, rfl⟩ := mem_resolutions_farewell shown
      obtain ⟨call, found⟩ := CallTable.mem_ids_iff.mp held
      exact ⟨call, found, .ended _ _ running rfl rfl (exitReason_fails c)⟩
  | @gaveUp n call calls taken =>
      rw [resolutions_cons, (cancelNotice_quiet c n).resolutions, List.append_nil] at shown
      obtain ⟨rfl, rfl⟩ := Prod.mk.inj (List.mem_singleton.mp shown)
      exact ⟨call, (CallTable.cancel_taken taken).held, .cancelled rfl⟩
  | filed filing turn told =>
      rw [(filed_quiet told).resolutions] at shown
      cases shown
  | @answered r n call calls taken plain =>
      obtain ⟨rfl, rfl⟩ := Prod.mk.inj (List.mem_singleton.mp shown)
      obtain ⟨own, taken⟩ := CallTable.takeForResponse_taken taken
      have other : call.method ≠ Method.initializeRequest := by
        intro named
        rw [(fits.isHandshake_iff taken.held).mpr named] at plain
        cases plain
      refine ⟨call, taken.held, ?_⟩
      rw [← delivered_plain other]
      exact .responded r rfl own
  | @shaken rid n result call calls capabilities taken handshake usable =>
      have quiet := tryWrite_quiet c (notice_ne_request Method.initializedNotice (.obj []))
      obtain ⟨own, taken⟩ := CallTable.takeForResponse_taken taken
      have named := (fits.isHandshake_iff taken.held).mp handshake
      simp only [resolutions_append, resolutions_cons, quiet.resolutions, Output.resolution?,
        resolutions_nil, Option.toList_none, Option.toList_some, List.nil_append,
        List.append_nil] at shown
      obtain ⟨rfl, rfl⟩ := Prod.mk.inj (List.mem_singleton.mp shown)
      -- A usable result is delivered as it came.
      have given : delivered call.method (.ok result) = .ok result := by
        simp only [delivered, named, beq_self_eq_true, if_true, usable]
      refine ⟨call, taken.held, ?_⟩
      rw [← given]
      exact .responded ⟨rid, .ok result⟩ rfl own
  | @refused r n call calls failure taken handshake fails =>
      obtain ⟨own, taken⟩ := CallTable.takeForResponse_taken taken
      have named := (fits.isHandshake_iff taken.held).mp handshake
      rcases List.mem_cons.mp shown with same | shown
      · obtain ⟨rfl, rfl⟩ := Prod.mk.inj same
        refine ⟨call, taken.held, ?_⟩
        rw [← fails.delivered, ← named]
        exact .responded r rfl own
      · obtain ⟨held, rfl⟩ := mem_resolutions_farewell shown
        obtain ⟨other, found⟩ := CallTable.mem_ids_iff.mp held
        exact ⟨other, CallTable.call?_of_sublist sound.distinct taken.within.calls found,
          .ended _ _ (not_exited_of_isHandshake handshake) rfl rfl rfl⟩
  | stray missed unmatched => cases shown
  | malformed => cases shown
  | heard =>
      rw [(receiveNotification_quiet c _).resolutions] at shown
      cases shown
  | called handled => cases shown
  | declined unhandled =>
      rw [(reply_quiet c _).resolutions] at shown
      cases shown
  | finished first =>
      rw [(reply_quiet c _).resolutions] at shown
      cases shown
  | @lapsed expired calls d out taken lapse =>
      have drawn := CallTable.expire_drawn taken
      rcases lapse.cause (fits.of_perm (drawn.perm sound)) shown with
        ⟨call, held, rfl⟩ | ⟨held, running, ⟨why, ceased, recorded⟩, rfl⟩
      · obtain ⟨found, due⟩ := drawn.held _ held
        exact ⟨call, found, .timedOut rfl due⟩
      · obtain ⟨call, found⟩ := CallTable.mem_ids_iff.mp held
        exact ⟨call, CallTable.call?_of_sublist sound.distinct drawn.within.calls found,
          .ended _ _ running ceased recorded rfl⟩
  | ceased running ending =>
      obtain ⟨held, rfl⟩ := mem_resolutions_farewell shown
      obtain ⟨call, found⟩ := CallTable.mem_ids_iff.mp held
      exact ⟨call, found, .ended _ _ running rfl rfl ending.fails⟩
  | shut gone =>
      rw [(closing_quiet c).resolutions] at shown
      cases shown

end ServerProbe.Connection
