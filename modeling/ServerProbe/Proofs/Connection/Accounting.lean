import ServerProbe.Proofs.Connection.Output
/-!
Every call is accounted for. A deed issues one new call, or resolves calls that are outstanding and
leaves the rest as they are; so no id is used twice and no call is resolved twice.
-/

namespace ServerProbe.Connection

open Rpc (Id Message Notification Outcome Request Response)

variable {η : Type}

def resolvedIds (out : List (Output η)) : List Nat := (resolutions out).map Prod.fst

@[simp] theorem resolvedIds_append (a b : List (Output η)) :
    resolvedIds (a ++ b) = resolvedIds a ++ resolvedIds b := by
  simp only [resolvedIds, resolutions_append, List.map_append]

theorem Quiet.resolvedIds {out : List (Output η)} (h : Quiet out) : resolvedIds out = [] := by
  rw [Connection.resolvedIds, h.resolutions, List.map_nil]

theorem resolvedIds_resolved (id : Nat) (answer : Answered) (out : List (Output η)) :
    resolvedIds (.resolved id answer :: out) = id :: resolvedIds out := rfl

theorem resolvedIds_farewell (c : Connection η) (reason : ExitReason) (failure : Failure) :
    resolvedIds (c.farewell reason failure) = c.calls.ids.reverse := by
  simp only [resolvedIds, resolutions_farewell, List.map_map, Function.comp_def, List.map_id',
    CallTable.outstanding_eq]

inductive Accounted (now : Time) (c : Connection η) (act : Act η) (d : Connection η)
    (out : List (Output η)) : Prop
  | issued (method : String) (params : Option Json) (timeout : Option Span)
      (command : act = .input (.command (.request method params timeout)))
      (valid : Method.isValid method = true)
      (allowed : Session.requestAllowed c.state method = true) (up : c.link = .up)
      (calls : d.calls = c.registered now method timeout) (link : d.link = c.link)
      (wrote : requests out = [⟨.number c.calls.next, method, params⟩])
      (unresolved : resolutions out = [])
  | settled (calls : d.calls.calls.Sublist c.calls.calls)
      (resolved : (resolvedIds out ++ d.calls.ids).Perm c.calls.ids)
      (silent : requests out = []) (later : c.calls.next ≤ d.calls.next)
      (steady : d.link = .up → c.link = .up ∧ d.calls.next = c.calls.next)

theorem Accounted.kept {now : Time} {c d : Connection η} {act : Act η} {out : List (Output η)}
    (calls : d.calls = c.calls) (link : d.link = .up → c.link = .up) (quiet : Quiet out) :
    Accounted now c act d out := by
  refine .settled (calls ▸ List.Sublist.refl _) ?_ quiet.requests (calls ▸ Nat.le_refl _)
    fun up => ⟨link up, calls ▸ rfl⟩
  rw [quiet.resolvedIds, calls]
  exact List.Perm.refl _

theorem Accounted.one {now : Time} {c d : Connection η} {act : Act η} {out : List (Output η)}
    {id : Nat} {call : Call} (sound : c.calls.Sound) (taken : c.calls.Taken id call d.calls)
    (link : d.link = c.link) (resolved : resolvedIds out = [id]) (silent : requests out = []) :
    Accounted now c act d out := by
  refine .settled taken.within.calls ?_ silent (Nat.le_of_eq taken.next.symm)
    fun up => ⟨link ▸ up, taken.next⟩
  rw [resolved]
  exact (taken.perm_ids sound).symm

/-- The end of the session resolves the calls that have not been resolved before. -/
theorem Accounted.all {now : Time} {c d : Connection η} {act : Act η} {out : List (Output η)}
    (ids : d.calls.ids = []) (next : d.calls.next = c.calls.next) (link : d.link = .closed)
    (resolved : (resolvedIds out).Perm c.calls.ids) (silent : requests out = []) :
    Accounted now c act d out := by
  have none : d.calls.calls = [] := List.map_eq_nil_iff.mp ids
  refine .settled (none ▸ List.nil_sublist _) ?_ silent (Nat.le_of_eq next.symm) fun up => ?_
  · rwa [ids, List.append_nil]
  · rw [link] at up
    cases up

theorem Lapse.requests {c d : Connection η} {expired : List (Nat × Call)} {out : List (Output η)}
    (h : Lapse c expired d out) : requests out = [] := by
  induction h with
  | nil => rfl
  | plain other later ih =>
      simp [ih, (cancelNotice_quiet _ _).requests, Output.request?]
  | handshake own wrapped later ih =>
      simp [ih, (cancelNotice_quiet _ _).requests, Output.request?]

/-- Calls that lapse are all resolved, and with them what the end of the session resolves. -/
theorem Lapse.resolved {c d : Connection η} {expired : List (Nat × Call)} {out : List (Output η)}
    (h : Lapse c expired d out) :
    (resolvedIds out ++ d.calls.ids).Perm (expired.map Prod.fst ++ c.calls.ids) := by
  induction h with
  | nil => exact List.Perm.refl _
  | @plain c d id call rest out other later ih =>
      rw [resolvedIds_append, (cancelNotice_quiet c id).resolvedIds, resolvedIds_resolved]
      exact ih.cons id
  | @handshake c d id call rest out failure own wrapped later ih =>
      -- The end resolves what is outstanding; the calls that lapse after it are not among them.
      have cleared : (c.ended (.initializeFailed failure.message)).calls.ids = [] := rfl
      rw [cleared, List.append_nil] at ih
      rw [List.append_assoc, resolvedIds_append, (cancelNotice_quiet c id).resolvedIds,
        List.nil_append, List.cons_append, resolvedIds_resolved, resolvedIds_append,
        resolvedIds_farewell, List.map_cons, List.cons_append, List.cons_append, List.append_assoc]
      refine List.Perm.cons id ?_
      calc c.calls.ids.reverse ++ (resolvedIds out ++ d.calls.ids)
          |>.Perm (c.calls.ids ++ rest.map Prod.fst) := (List.reverse_perm _).append ih
        _ |>.Perm (rest.map Prod.fst ++ c.calls.ids) := List.perm_append_comm

theorem Lapse.within {c d : Connection η} {expired : List (Nat × Call)} {out : List (Output η)}
    (h : Lapse c expired d out) : d.calls.Within c.calls ∧ (d.link = .up → c.link = .up) := by
  induction h with
  | nil => exact ⟨⟨rfl, List.Sublist.refl _⟩, id⟩
  | plain other later ih => exact ih
  | @handshake c d id call rest out failure own wrapped later ih =>
      obtain ⟨within, link⟩ := ih
      have cleared : (c.ended (.initializeFailed failure.message)).calls.Within c.calls :=
        CallTable.clear_within c.calls
      exact ⟨⟨within.next.trans cleared.next, within.calls.trans cleared.calls⟩,
        fun up => by cases link up⟩

theorem deed_accounted {now : Time} {c d : Connection η} {act : Act η} {out : List (Output η)}
    (sound : c.calls.Sound) (deed : Deed now c act d out) : Accounted now c act d out := by
  cases deed with
  | idle alike unheard =>
      refine .kept alike.calls (fun up => ?_) quiet_nil
      rcases alike.link with same | ⟨was, lost⟩
      · exact same ▸ up
      · exact was
  | @unwritten method params timeout allowed down =>
      -- The call is entered and taken out again: only its number is used up.
      have same : ((c.registered now method timeout).forget c.calls.next).calls = c.calls.calls :=
        CallTable.forget_insert_calls sound now method _
      refine .settled (same ▸ List.Sublist.refl _) ?_ rfl (Nat.le_succ _) fun up => absurd up down
      simp only [CallTable.ids, same]
      exact List.Perm.refl _
  | issued valid allowed up =>
      refine .issued _ _ _ rfl valid allowed up rfl rfl ?_ ?_
      · simp [Output.request?]
      · simp [Output.resolution?]
  | noted valid allowed up stays => exact .kept rfl id (quiet_singleton trivial)
  | left running up =>
      refine .all rfl rfl rfl ?_ ?_
      · exact (resolvedIds_farewell c _ _).symm ▸ List.reverse_perm _
      · simp [Output.request?]
  | gaveUp taken =>
      refine .one sound (CallTable.cancel_taken taken) rfl ?_ ?_
      · rw [resolvedIds_resolved, (cancelNotice_quiet c _).resolvedIds]
      · simp [(cancelNotice_quiet c _).requests, Output.request?]
  | filed filing turn told => exact .kept rfl id (filed_quiet told)
  | answered taken plain =>
      exact .one sound (CallTable.takeForResponse_taken taken).2 rfl rfl rfl
  | shaken taken handshake usable =>
      have quiet := tryWrite_quiet c (notice_ne_request Method.initializedNotice (.obj []))
      refine .one sound (CallTable.takeForResponse_taken taken).2 rfl ?_ ?_
      · simp [resolvedIds, quiet.resolutions, Output.resolution?]
      · simp [quiet.requests, Output.request?]
  | @refused r id call calls failure taken handshake fails =>
      have perm := (CallTable.takeForResponse_taken taken).2.perm_ids sound
      have next := (CallTable.takeForResponse_taken taken).2.next
      refine .all rfl next rfl ?_ ?_
      · rw [resolvedIds_resolved, resolvedIds_farewell]
        exact ((List.reverse_perm _).cons id).trans perm.symm
      · simp [Output.request?]
  | stray missed unmatched =>
      obtain ⟨calls, next⟩ := CallTable.takeForResponse_unmatched missed unmatched
      refine .settled (calls ▸ List.Sublist.refl _) ?_ rfl (Nat.le_of_eq next.symm)
        fun up => ⟨up, next⟩
      simp only [CallTable.ids, calls]
      exact List.Perm.refl _
  | malformed => exact .kept rfl id (quiet_singleton trivial)
  | heard => exact .kept rfl id (receiveNotification_quiet c _)
  | called handled => exact .kept rfl id (quiet_singleton trivial)
  | declined unhandled => exact .kept rfl id (reply_quiet c _)
  | finished first => exact .kept rfl id (reply_quiet c _)
  | lapsed taken lapse =>
      have drawn := CallTable.expire_drawn taken
      obtain ⟨within, link⟩ := lapse.within
      have next := within.next.trans drawn.within.next
      exact .settled (within.calls.trans drawn.within.calls)
        (lapse.resolved.trans (drawn.perm_ids sound).symm) lapse.requests (Nat.le_of_eq next.symm)
        fun up => ⟨link up, next⟩
  | ceased running ending =>
      refine .all rfl rfl rfl ?_ (requests_farewell c _ _)
      exact (resolvedIds_farewell c _ _).symm ▸ List.reverse_perm _
  | shut gone => exact .kept rfl (fun up => by cases up) (closing_quiet c)

theorem Accounted.sound {now : Time} {c d : Connection η} {act : Act η} {out : List (Output η)}
    (h : Accounted now c act d out) (sound : c.calls.Sound) : d.calls.Sound := by
  cases h with
  | issued method params timeout command valid allowed up calls =>
      exact calls ▸ CallTable.insert_sound sound now method _
  | settled calls resolved silent later steady =>
      refine ⟨sound.distinct.sublist (calls.map Prod.fst), fun id held => ?_⟩
      exact Nat.lt_of_lt_of_le (sound.given id ((calls.map Prod.fst).subset held)) later

/-! ### The books -/

/-- What holds of the calls and of all outputs so far: the requests written are numbered from one on,
and every number stands for one call, which is outstanding or has been resolved. -/
structure Balanced (c : Connection η) (past : List (Output η)) : Prop where
  sound : c.calls.Sound
  numbered : ∃ n, (requests past).map Request.id = (List.range' 1 n).map (fun k : Nat => .number k) ∧
    (resolvedIds past ++ c.calls.ids).Perm (List.range' 1 n) ∧
    n < c.calls.next ∧ (c.link = .up → c.calls.next = n + 1)

theorem fresh_balanced (config : ClientConfig) : Balanced (fresh config : Connection η) [] :=
  ⟨CallTable.fresh_sound _, ⟨0, rfl, List.Perm.refl _, Nat.zero_lt_one, fun _ => rfl⟩⟩

theorem Balanced.deed {now : Time} {c d : Connection η} {past out : List (Output η)} {act : Act η}
    (h : Balanced c past) (deed : Deed now c act d out) : Balanced d (past ++ out) := by
  have accounted := deed_accounted h.sound deed
  have sound := accounted.sound h.sound
  obtain ⟨n, written, whole, below, tight⟩ := h.numbered
  cases accounted with
  | issued method params timeout command valid allowed up calls link wrote unresolved =>
      have ids : d.calls.ids = c.calls.next :: c.calls.ids := calls ▸ rfl
      have next : d.calls.next = c.calls.next + 1 := calls ▸ rfl
      have none : resolvedIds out = [] := by rw [resolvedIds, unresolved, List.map_nil]
      have latest : List.range' 1 (n + 1) = List.range' 1 n ++ [c.calls.next] := by
        rw [List.range'_concat, tight up, Nat.one_mul, Nat.add_comm 1 n]
      refine ⟨sound, n + 1, ?_, ?_, by omega, fun _ => by rw [next, tight up]⟩
      · rw [requests_append, List.map_append, written, wrote, latest, List.map_append]
        rfl
      · rw [resolvedIds_append, none, List.append_nil, ids, latest]
        exact (List.perm_middle.trans (whole.cons _)).trans (List.perm_append_singleton _ _).symm
  | settled calls resolved silent later steady =>
      refine ⟨sound, n, ?_, ?_, Nat.lt_of_lt_of_le below later, fun up => ?_⟩
      · rw [requests_append, silent, List.append_nil, written]
      · rw [resolvedIds_append, List.append_assoc]
        exact (resolved.append_left _).trans whole
      · obtain ⟨was, next⟩ := steady up
        rw [next, tight was]

theorem run_balanced (config : ClientConfig) (history : List (Time × Input η)) :
    Balanced (after config history) (outputs config history) := by
  have start : Balanced (fresh config : Connection η) [] := fresh_balanced config
  exact run_induction start (fun held deed => held.deed deed) history

theorem after_sound (config : ClientConfig) (history : List (Time × Input η)) :
    (after config history).calls.Sound := (run_balanced config history).sound

end ServerProbe.Connection
