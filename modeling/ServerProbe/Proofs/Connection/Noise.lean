import ServerProbe.Proofs.Connection.Lifecycle
import ServerProbe.Proofs.Connection.Twin
/-!
Noise: items that are no part of the dialogue, be they undecodable or answers to nothing. A run that
meets with them is like the same run without them, but for one report of an anomaly for each.
-/

namespace ServerProbe.Connection

open Rpc (Response)

variable {η : Type}

/-! ### Sequences of acts -/

/-- The turn that a sequence of acts leads to. -/
def enact (c : Connection η) (doings : List (Time × Act η)) : Turn η :=
  Turn.each (fun doing c => c.perform doing.1 doing.2) doings c

/-- All acts of a history, with the moments they come at. -/
def doings (c : Connection η) (history : List (Time × Input η)) : List (Time × Act η) :=
  (c.moments history).map fun m => (m.time, m.act)

theorem Path.enact_eq {c d : Connection η} {ms : List (Moment η)} (path : Path c ms d) :
    c.enact (ms.map fun m => (m.time, m.act)) = (d, written ms) := by
  induction path with
  | nil => rfl
  | @cons m rest d later ih =>
      have first : m.before.perform m.time m.act = (m.next, m.out) := rfl
      simp only [enact, List.map_cons, Turn.each, Turn.andThen, first] at ih ⊢
      rw [ih]
      rfl

/-- To run a history is to enact its acts. -/
theorem enact_doings (c : Connection η) (history : List (Time × Input η)) :
    c.enact (c.doings history) = c.run history := by
  obtain ⟨path, out⟩ := run_path c history
  rw [doings, path.enact_eq, out]

/-! ### Noise -/

/-- An item that was not decoded, or answers no call that is outstanding. -/
inductive Noise (c : Connection η) : Framing.Decoded → Prop
  | fault (fault : Framing.DecodeFault) : Noise c (.error fault)
  | stray (r : Response)
      (missed : ∀ n, CallTable.number? r.id = some n → n ∉ c.calls.outstanding) :
      Noise c (.ok (.response r))

/-- The anomaly that noise is reported as. -/
inductive Complaint : Framing.Decoded → Anomaly → Prop
  | fault (fault : Framing.DecodeFault) : Complaint (.error fault) (.ofFault fault)
  | unsolicited (r : Response) : Complaint (.ok (.response r)) (.unsolicitedResponse r.id)
  | late (r : Response) (method : String) :
      Complaint (.ok (.response r)) (.lateResponse r.id method)
  | duplicate (r : Response) (method : String) :
      Complaint (.ok (.response r)) (.duplicateResponse r.id method)

/-- Noise is reported, and leaves the connection as it was. -/
theorem Noise.heard {c : Connection η} {item : Framing.Decoded} (noise : Noise c item) (now : Time) :
    ∃ anomaly, Complaint item anomaly ∧
      (c.perform now (.item item)).2 = [.published (.anomaly anomaly)] ∧
      Twin now c (c.perform now (.item item)).1 := by
  cases noise with
  | fault fault => exact ⟨_, .fault fault, rfl, .refl now c⟩
  | stray r missed =>
      rcases lookup : c.calls.takeForResponse now r.id with ⟨found, calls⟩
      have unmatched : ∀ n call, found ≠ .outstanding n call := by
        rintro n call rfl
        obtain ⟨same, taken⟩ := CallTable.takeForResponse_taken lookup
        refine missed n (same ▸ rfl) ?_
        rw [CallTable.outstanding_eq, List.mem_reverse, CallTable.mem_ids_iff]
        exact ⟨call, taken.held⟩
      have twin : Twin now c { c with calls } :=
        ⟨calls, c.decoder, CallTable.takeForResponse_agree lookup unmatched, rfl⟩
      simp only [perform, receive, receiveResponse, lookup]
      cases found with
      | outstanding n call => exact absurd rfl (unmatched n call)
      | late method => exact ⟨_, .late r method, rfl, twin⟩
      | duplicate method => exact ⟨_, .duplicate r method, rfl, twin⟩
      | unknown => exact ⟨_, .unsolicited r, rfl, twin⟩

/-- Acts of a quiet connection, and the same acts with noise among them as another comes to do them.
The bytes that items were decoded from need not be the same. -/
inductive Padded : Connection η → List (Time × Act η) → List (Time × Act η) → List Framing.Decoded → Prop
  | nil {c : Connection η} : Padded c [] [] []
  | same {c : Connection η} {now : Time} {act : Act η} {quiet noisy : List (Time × Act η)}
      {extra : List Framing.Decoded} (rest : Padded (c.perform now act).1 quiet noisy extra) :
      Padded c ((now, act) :: quiet) ((now, act) :: noisy) extra
  | fed {c : Connection η} {now : Time} {bytes : Bytes} {quiet noisy : List (Time × Act η)}
      {extra : List Framing.Decoded} (rest : Padded c quiet noisy extra) :
      Padded c ((now, .feed bytes) :: quiet) noisy extra
  | feeds {c : Connection η} {now : Time} {bytes : Bytes} {quiet noisy : List (Time × Act η)}
      {extra : List Framing.Decoded} (rest : Padded (c.perform now (.feed bytes)).1 quiet noisy extra) :
      Padded c quiet ((now, .feed bytes) :: noisy) extra
  | noise {c : Connection η} {now : Time} {item : Framing.Decoded} {quiet noisy : List (Time × Act η)}
      {extra : List Framing.Decoded} (noise : Noise c item)
      (rest : Padded (c.perform now (.item item)).1 quiet noisy extra) :
      Padded c quiet ((now, .item item) :: noisy) (item :: extra)

/-! ### Reports -/

/-- Outputs with reports of anomalies threaded through them. -/
inductive Threaded : List (Output η) → List Anomaly → List (Output η) → Prop
  | nil : Threaded [] [] []
  | kept (o : Output η) {out all : List (Output η)} {anomalies : List Anomaly}
      (rest : Threaded out anomalies all) : Threaded (o :: out) anomalies (o :: all)
  | told (anomaly : Anomaly) {out all : List (Output η)} {anomalies : List Anomaly}
      (rest : Threaded out anomalies all) :
      Threaded out (anomaly :: anomalies) (.published (.anomaly anomaly) :: all)

namespace Threaded

variable {out all : List (Output η)} {anomalies : List Anomaly}

theorem after (h : Threaded out anomalies all) (before : List (Output η)) :
    Threaded (before ++ out) anomalies (before ++ all) := by
  induction before with
  | nil => exact h
  | cons o before ih => exact .kept o ih

/-- A view of outputs that has no eye for anomalies does not tell the outputs apart. -/
theorem filterMap_eq {α : Type} {view : Output η → Option α}
    (blind : ∀ anomaly, view (.published (.anomaly anomaly)) = none)
    (h : Threaded out anomalies all) : all.filterMap view = out.filterMap view := by
  induction h with
  | nil => rfl
  | kept o rest ih =>
      simp only [List.filterMap_cons, ih]
  | told anomaly rest ih =>
      rw [List.filterMap_cons_none (blind anomaly), ih]

theorem changes (h : Threaded out anomalies all) : changes (events all) = changes (events out) := by
  unfold Connection.changes events
  rw [List.filterMap_filterMap, List.filterMap_filterMap]
  exact h.filterMap_eq fun _ => rfl

end Threaded

/-! ### Noise in a run -/

/-- A turn with noise in it is like one without, but for one report for each item of noise. -/
structure Undisturbed (quiet noisy : Turn η) (extra : List Framing.Decoded) : Prop where
  resolutions : resolutions noisy.2 = resolutions quiet.2
  sent : sent noisy.2 = sent quiet.2
  states : changes (events noisy.2) = changes (events quiet.2)
  session : noisy.1.session = quiet.1.session
  documents : noisy.1.documents = quiet.1.documents
  outstanding : noisy.1.calls.outstanding = quiet.1.calls.outstanding
  reported : ∃ anomalies, List.Forall₂ Complaint extra anomalies ∧
    Threaded quiet.2 anomalies noisy.2

theorem Padded.enact_threaded {c d : Connection η} {quiet noisy : List (Time × Act η)}
    {extra : List Framing.Decoded} (padded : Padded d quiet noisy extra) {start stop : Time}
    (twin : Twin start c d) (ordered : Timed start noisy stop) :
    Twin stop (c.enact quiet).1 (d.enact noisy).1 ∧
      ∃ anomalies, List.Forall₂ Complaint extra anomalies ∧
        Threaded (c.enact quiet).2 anomalies (d.enact noisy).2 := by
  induction padded generalizing c start with
  | nil => exact ⟨twin.mono ordered, [], .nil, .nil⟩
  | @same d now act quiet noisy extra rest ih =>
      obtain ⟨out, twin⟩ := perform_twins (twin.mono ordered.1) act
      obtain ⟨twin, anomalies, complaints, threaded⟩ := ih twin ordered.2
      refine ⟨twin, anomalies, complaints, ?_⟩
      simp only [enact, Turn.each, Turn.andThen, out]
      exact threaded.after _
  | @fed d now bytes quiet noisy extra rest ih =>
      have fed : Twin start c (c.perform now (.feed bytes)).1 := .fed start c _
      exact ih (fed.symm.trans twin) ordered
  | @feeds d now bytes quiet noisy extra rest ih =>
      exact ih ((twin.mono ordered.1).trans (.fed now d _)) ordered.2
  | @noise d now item quiet noisy extra noise rest ih =>
      obtain ⟨anomaly, complaint, out, heard⟩ := noise.heard now
      obtain ⟨twin, anomalies, complaints, threaded⟩ := ih ((twin.mono ordered.1).trans heard) ordered.2
      refine ⟨twin, anomaly :: anomalies, .cons complaint complaints, ?_⟩
      simp only [enact, Turn.each, Turn.andThen, out]
      exact .told anomaly threaded

/-- Whatever noise a connection meets with in a run, it does what it does without it. Time never goes
back: what is late by one clock could be unknown by another. -/
theorem undisturbed {config : ClientConfig} {history : List (Time × Input η)}
    {noisy : List (Time × Act η)} {extra : List Framing.Decoded} {stop : Time}
    (padded : Padded (fresh config) ((fresh config).doings history) noisy extra)
    (ordered : Timed 0 noisy stop) :
    Undisturbed ((fresh config).run history) ((fresh config).enact noisy) extra := by
  obtain ⟨twin, anomalies, complaints, threaded⟩ := padded.enact_threaded (.refl 0 _) ordered
  rw [enact_doings] at twin threaded
  obtain ⟨calls, decoder, agree, same⟩ := twin
  refine ⟨threaded.filterMap_eq fun _ => rfl, threaded.filterMap_eq fun _ => rfl, threaded.changes,
    ?_, ?_, ?_, anomalies, complaints, threaded⟩
  · rw [same]
  · rw [same]
  · rw [same, CallTable.outstanding, CallTable.outstanding, agree.calls]

/-- A handshake that is given up. -/
def withdrawn : List (Time × Input Unit) :=
  [(0, .command (.request Method.initializeRequest none none)), (5, .command (.cancel (.number 1)))]

/-- A frame cannot be read before it, and its answer comes when it is given up, once with its id and
once with the text of it. -/
def strays : List (Time × Act Unit) :=
  [(0, .item (.error (.frame .lengthMissing))),
    (0, .input (.command (.request Method.initializeRequest none none))),
    (5, .input (.command (.cancel (.number 1)))),
    (6, .item (.ok (.response ⟨.number 1, .ok .null⟩))),
    (7, .item (.ok (.response ⟨.text "1", .ok .null⟩)))]

theorem undisturbed_withdrawn : ∃ extra, Padded (fresh .standard) ((fresh .standard).doings withdrawn)
      strays extra ∧ extra.length = 3 ∧ Timed 0 strays 7 ∧
    Undisturbed ((fresh .standard).run withdrawn) ((fresh .standard).enact strays) extra := by
  have ordered : Timed 0 strays 7 := by simp [Timed, strays]
  have padded : ∃ extra, Padded (fresh .standard) ((fresh .standard).doings withdrawn) strays extra ∧
      extra.length = 3 := by
    refine ⟨_, .noise (.fault _) (.same (.same (.noise (.stray _ fun n number => ?_)
      (.noise (.stray _ fun n number => ?_) .nil)))), rfl⟩
    · obtain rfl := Option.some.inj number
      decide +kernel
    · cases number
  obtain ⟨extra, padded, count⟩ := padded
  exact ⟨extra, padded, count, ordered, undisturbed padded ordered⟩

end ServerProbe.Connection
