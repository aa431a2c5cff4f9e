import Mathlib.Data.List.Nodup
import ServerProbe.Proofs.Connection.Passage
/-!
Where a connection has its knowledge from. That a shutdown was acknowledged, and the capabilities of
the server, can be read off what has been put out: a request that was written, and its result.
-/

namespace ServerProbe.Connection

open Rpc (Id Message Notification Outcome Request Response)

variable {η : Type}

/-- The server has answered a request for a method with a value. -/
def Obtained (past : List (Output η)) (method : String) (value : Json) : Prop :=
  ∃ (id : Nat) (params : Option Json),
    .wrote (.request ⟨.number id, method, params⟩) ∈ past ∧ .resolved id (.ok value) ∈ past

theorem Obtained.later {past : List (Output η)} {method : String} {value : Json}
    (h : Obtained past method value) (out : List (Output η)) : Obtained (past ++ out) method value := by
  obtain ⟨id, params, sent, given⟩ := h
  exact ⟨id, params, List.mem_append_left _ sent, List.mem_append_left _ given⟩

/-! ### Results -/

/-- Only a response gives a result. -/
theorem Deed.response_of_result {now : Time} {c d : Connection η} {act : Act η} {out : List (Output η)}
    {id : Nat} {value : Json} (deed : Deed now c act d out) (sound : c.calls.Sound)
    (fits : Fitting c.state c.calls.calls) (shown : (id, .ok value) ∈ resolutions out) :
    ∃ r, act = .item (.ok (.response r)) := by
  obtain ⟨call, -, cause⟩ := deed.cause sound fits shown
  generalize given : (.ok value : Answered) = answer at cause
  cases cause with
  | responded r item own => exact ⟨r, item⟩
  | cancelled command => cases given
  | timedOut input due => cases given
  | ended reason failure running ceased recorded fails => cases given

theorem Lapse.acknowledged {c d : Connection η} {expired : List (Nat × Call)} {out : List (Output η)}
    (h : Lapse c expired d out) : d.acknowledged = c.acknowledged := by
  induction h with
  | nil => rfl
  | plain other later ih => exact ih
  | handshake own wrapped later ih => exact ih

/-- Only a response acknowledges anything. -/
theorem Deed.acknowledged_eq {now : Time} {c d : Connection η} {act : Act η} {out : List (Output η)}
    (deed : Deed now c act d out) (other : ∀ r, act ≠ .item (.ok (.response r))) :
    d.acknowledged = c.acknowledged := by
  cases deed with
  | idle alike unheard => exact alike.acknowledged
  | answered taken plain => exact absurd rfl (other _)
  | lapsed taken lapse => exact lapse.acknowledged
  | _ => rfl

theorem shutdown_ne_initialize : Method.shutdown ≠ Method.initializeRequest := by decide

/-- A shutdown becomes acknowledged when a call for it is given a result. -/
theorem Deed.acknowledged_iff {now : Time} {c d : Connection η} {act : Act η} {out : List (Output η)}
    (deed : Deed now c act d out) (sound : c.calls.Sound) (fits : Fitting c.state c.calls.calls) :
    d.acknowledged = true ↔ c.acknowledged = true ∨ ∃ id call value,
      c.calls.call? id = some call ∧ call.method = Method.shutdown ∧
        (id, .ok value) ∈ resolutions out := by
  by_cases response : ∃ r, act = .item (.ok (.response r))
  · obtain ⟨r, rfl⟩ := response
    cases deed with
    | idle alike unheard => exact absurd rfl (unheard _)
    | @answered r id call calls taken plain =>
        have held := (CallTable.takeForResponse_taken taken).2.held
        simp only [Bool.or_eq_true, Bool.and_eq_true, beq_iff_eq]
        refine or_congr Iff.rfl ⟨fun ⟨named, ok⟩ => ?_, fun given => ?_⟩
        · cases outcome : r.outcome with
          | error e =>
              rw [outcome] at ok
              cases ok
          | ok value => exact ⟨id, call, value, held, named, List.mem_singleton.mpr rfl⟩
        · obtain ⟨n, other, value, found, named, shown⟩ := given
          obtain ⟨rfl, given⟩ := Prod.mk.inj (List.mem_singleton.mp shown)
          obtain rfl := Option.some.inj (held.symm.trans found)
          refine ⟨named, ?_⟩
          cases outcome : r.outcome with
          | error e =>
              rw [outcome] at given
              cases given
          | ok value => rfl
    | @shaken _ n result call calls capabilities taken handshake usable =>
        have quiet := tryWrite_quiet c (notice_ne_request Method.initializedNotice (.obj []))
        have held := (CallTable.takeForResponse_taken taken).2.held
        have own := (fits.isHandshake_iff held).mp handshake
        refine ⟨.inl, fun given => given.resolve_right ?_⟩
        rintro ⟨id, other, value, found, named, shown⟩
        simp only [resolutions_append, resolutions_cons, quiet.resolutions, Output.resolution?,
          resolutions_nil, Option.toList_none, Option.toList_some, List.nil_append,
          List.append_nil] at shown
        obtain ⟨rfl, -⟩ := Prod.mk.inj (List.mem_singleton.mp shown)
        obtain rfl := Option.some.inj (held.symm.trans found)
        exact shutdown_ne_initialize (named.symm.trans own)
    | refused taken handshake fails =>
        refine ⟨.inl, fun given => given.resolve_right ?_⟩
        rintro ⟨id, other, value, -, -, shown⟩
        rcases List.mem_cons.mp shown with same | shown
        · cases (Prod.mk.inj same).2
        · cases (mem_resolutions_farewell shown).2
    | stray missed unmatched =>
        refine ⟨.inl, fun given => given.resolve_right ?_⟩
        rintro ⟨id, other, value, -, -, shown⟩
        cases shown
  · have other : ∀ r, act ≠ .item (.ok (.response r)) := fun r same => response ⟨r, same⟩
    rw [deed.acknowledged_eq other]
    refine ⟨.inl, fun given => given.resolve_right ?_⟩
    rintro ⟨id, call, value, -, -, shown⟩
    exact response (deed.response_of_result sound fits shown)

/-! ### What can be read off the outputs -/

theorem Balanced.given {c : Connection η} {past : List (Output η)} (h : Balanced c past) {id : Nat}
    (held : id ∈ resolvedIds past) : id < c.calls.next := by
  obtain ⟨n, -, whole, below, -⟩ := h.numbered
  have := List.mem_range'_1.mp (whole.subset (List.mem_append_left _ held))
  omega

theorem Balanced.request_eq {c : Connection η} {past : List (Output η)} (h : Balanced c past)
    {r s : Request} (hr : r ∈ requests past) (hs : s ∈ requests past) (same : r.id = s.id) : r = s := by
  obtain ⟨n, written, -⟩ := h.numbered
  have distinct : ((requests past).map Request.id).Nodup := by
    rw [written]
    exact List.Nodup.map (fun _ _ => number_inj) List.nodup_range'
  exact List.inj_on_of_nodup_map distinct hr hs same

/-- Every outstanding call was written, and what the connection knows from the server's answers can be
read off what it has put out. -/
structure Witnessed (c : Connection η) (past : List (Output η)) : Prop where
  balanced : Balanced c past
  fits : Fitting c.state c.calls.calls
  sent : ∀ id call, c.calls.call? id = some call →
    ∃ params, ⟨.number id, call.method, params⟩ ∈ requests past
  acknowledged : c.acknowledged = true ↔ ∃ value, Obtained past Method.shutdown value
  negotiated : ∀ capabilities, c.session.capabilities = some capabilities →
    ∃ result, Obtained past Method.initializeRequest result ∧
      Capabilities.ofResult result = .ok capabilities

theorem fresh_witnessed (config : ClientConfig) : Witnessed (fresh config : Connection η) [] := by
  refine ⟨fresh_balanced config, fitting_nil _, fun id call held => ?_, ⟨fun h => ?_, fun h => ?_⟩,
    fun capabilities known => ?_⟩
  · cases held
  · cases h
  · obtain ⟨value, id, params, held, -⟩ := h
    cases held
  · cases known

theorem Witnessed.obtained {c : Connection η} {past out : List (Output η)} (h : Witnessed c past)
    {id : Nat} {call : Call} {value : Json} (held : c.calls.call? id = some call)
    (shown : (id, .ok value) ∈ resolutions out) : Obtained (past ++ out) call.method value := by
  obtain ⟨params, written⟩ := h.sent id call held
  exact ⟨id, params, List.mem_append_left _ (mem_requests.mp written),
    List.mem_append_right _ (mem_resolutions.mp shown)⟩

/-- A value obtained by a deed was obtained before, or is the result of an outstanding call. -/
theorem Witnessed.of_obtained {now : Time} {c d : Connection η} {past out : List (Output η)}
    {act : Act η} (h : Witnessed c past) (deed : Deed now c act d out) {method : String} {value : Json}
    (obtained : Obtained (past ++ out) method value) : Obtained past method value ∨
      ∃ id call, c.calls.call? id = some call ∧ call.method = method ∧
        (id, .ok value) ∈ resolutions out := by
  obtain ⟨id, params, written, given⟩ := obtained
  have asked : ⟨.number id, method, params⟩ ∈ requests past ++ requests out :=
    requests_append past out ▸ mem_requests.mpr written
  have shown : (id, .ok value) ∈ resolutions past ++ resolutions out :=
    resolutions_append past out ▸ mem_resolutions.mpr given
  rcases List.mem_append.mp asked with earlier | new
  · rcases List.mem_append.mp shown with before | now_shown
    · exact .inl ⟨id, params, mem_requests.mp earlier, mem_resolutions.mp before⟩
    · obtain ⟨call, held, -⟩ := deed.cause h.balanced.sound h.fits now_shown
      obtain ⟨others, sent⟩ := h.sent id call held
      have same := h.balanced.request_eq sent earlier rfl
      exact .inr ⟨id, call, held, congrArg Request.method same, now_shown⟩
  · -- A request has only just been given its number, so nothing with that number is resolved.
    exfalso
    have accounted := deed_accounted h.balanced.sound deed
    cases accounted with
    | issued other others timeout command valid allowed up calls link wrote unresolved =>
        rw [wrote] at new
        have number : id = c.calls.next :=
          number_inj (congrArg Request.id (List.mem_singleton.mp new))
        rw [unresolved, List.append_nil] at shown
        have below := h.balanced.given (List.mem_map_of_mem shown)
        rw [number] at below
        exact Nat.lt_irrefl _ below
    | settled calls resolved silent later steady =>
        rw [silent] at new
        cases new

theorem Witnessed.deed {now : Time} {c d : Connection η} {past out : List (Output η)} {act : Act η}
    (h : Witnessed c past) (deed : Deed now c act d out) : Witnessed d (past ++ out) := by
  have sound := h.balanced.sound
  refine ⟨h.balanced.deed deed, h.fits.deed sound deed, fun id call held => ?_, ?_,
    fun capabilities known => ?_⟩
  · rw [requests_append]
    rcases (deed_accounted sound deed).outstanding sound held with
      kept | ⟨method, params, timeout, command, wrote, rfl⟩
    · obtain ⟨params, sent⟩ := h.sent id call kept
      exact ⟨params, List.mem_append_left _ sent⟩
    · refine ⟨params, List.mem_append_right _ ?_⟩
      rw [wrote]
      exact List.mem_singleton.mpr rfl
  · rw [deed.acknowledged_iff sound h.fits, h.acknowledged]
    constructor
    · rintro (⟨value, before⟩ | ⟨id, call, value, held, named, shown⟩)
      · exact ⟨value, before.later out⟩
      · exact ⟨value, named ▸ h.obtained held shown⟩
    · rintro ⟨value, obtained⟩
      rcases h.of_obtained deed obtained with before | ⟨id, call, held, named, shown⟩
      · exact .inl ⟨value, before⟩
      · exact .inr ⟨id, call, value, held, named, shown⟩
  · have earlier : c.session.capabilities = some capabilities → ∃ result,
        Obtained (past ++ out) Method.initializeRequest result ∧
          Capabilities.ofResult result = .ok capabilities := by
      intro known
      obtain ⟨result, obtained, usable⟩ := h.negotiated capabilities known
      exact ⟨result, obtained.later out, usable⟩
    cases deed.passes with
    | settles others was session told given =>
        obtain ⟨n, call, result, held, named, shown, usable⟩ := given
        have same : some others = some capabilities :=
          (congrArg Session.capabilities session).symm.trans known
        rw [← Option.some.inj same]
        exact ⟨result, named ▸ h.obtained held shown, usable⟩
    | stays session told => exact earlier (session ▸ known)
    | starts asked was session told => exact earlier (by rwa [session] at known)
    | stops asked was session told => exact earlier (by rwa [session] at known)
    | ends reason running session told warrant => exact earlier (by rwa [session] at known)

theorem after_witnessed (config : ClientConfig) (history : List (Time × Input η)) :
    Witnessed (after config history) (outputs config history) := by
  have start : Witnessed (fresh config : Connection η) [] := fresh_witnessed config
  exact run_induction start (fun held deed => held.deed deed) history

end ServerProbe.Connection
