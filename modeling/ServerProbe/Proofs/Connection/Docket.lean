import ServerProbe.Framing.Stream
import ServerProbe.Proofs.Connection.Moment
/-!
Server requests and their replies over a whole history. The docket has a case for each request that
arrives; replies are entered as they are written. Requests that have a handler are answered one after
the other, in the order of their arrival; one that nobody handles is answered when it arrives.
-/

namespace ServerProbe

open Rpc (ErrorObject Id Message Outcome Request Response)

def Rpc.Message.response? : Message → Option Response
  | .response r => some r
  | _ => none

namespace Connection

variable {η : Type}

/-! ### Replies -/

/-- The replies among the outputs. -/
def replies (out : List (Output η)) : List Response := (sent out).filterMap Message.response?

@[simp] theorem replies_append (a b : List (Output η)) : replies (a ++ b) = replies a ++ replies b := by
  simp only [replies, sent_append, List.filterMap_append]

def handlerFor (c : Connection η) (method : String) : Option η :=
  (c.requestHandlers.find? fun h => h.1 == method).map Prod.snd

/-- What becomes of a reply: it is written while the session runs and the link is up. -/
def delivered? (c : Connection η) (r : Response) : List Response :=
  if c.state ≠ .exited ∧ c.link = .up then [r] else []

theorem replies_reply (c : Connection η) (r : Response) : replies (c.reply r).2 = c.delivered? r := by
  unfold delivered?
  by_cases gone : c.state = .exited
  · rw [reply_of_exited gone, if_neg fun both => both.1 gone]
    rfl
  · by_cases up : c.link = .up
    · rw [reply_of_up gone up, if_pos ⟨gone, up⟩]
      rfl
    · rw [reply_of_down up, if_neg fun both => up both.2]
      rfl

/-! ### What an act does to the queue -/

/-- The session ends, and nobody waits any more. -/
def Ceases (c d : Connection η) : Prop := c.state ≠ .exited ∧ d.state = .exited ∧ d.queue = []

/-- What an act does to the server requests that wait, and which reply it gives. -/
inductive Serves (c : Connection η) (act : Act η) (d : Connection η) (out : List (Output η)) : Prop
  | accepts {r : Request} {handler : η} (own : act = .item (.ok (.request r)))
      (handled : c.handlerFor r.method = some handler)
      (queue : d.queue = c.queue ++ [⟨r.id, r.method, r.params, handler⟩])
      (silent : replies out = [])
  | declines {r : Request} (own : act = .item (.ok (.request r)))
      (unhandled : c.handlerFor r.method = none) (queue : d.queue = c.queue)
      (said : replies out = c.delivered? ⟨r.id, .error (.methodNotFound r.method)⟩)
  | finishes {p : Pending η} {rest : List (Pending η)} {how : HandlerEnd}
      (own : act = .input (.finished how)) (first : c.queue = p :: rest) (queue : d.queue = rest)
      (said : replies out = c.delivered? ⟨p.id, outcomeOf p.method how⟩)
  | passes (other : ∀ r, act ≠ .item (.ok (.request r))) (silent : replies out = [])
      (queue : d.queue = c.queue ∨ c.Ceases d)

theorem Lapse.queue {c d : Connection η} {expired : List (Nat × Call)} {out : List (Output η)}
    (h : Lapse c expired d out) : d.queue = c.queue ∨ c.Ceases d := by
  induction h with
  | nil => exact .inl rfl
  | plain other later ih => exact ih
  | handshake own wrapped later ih =>
      have gone := congrArg Session.state (later.exited_stays rfl)
      refine .inr ⟨not_exited_of_isHandshake own, gone, ?_⟩
      rcases ih with same | ceases
      · exact same
      · exact absurd rfl ceases.1

section

variable {now : Time} {c d : Connection η} {act : Act η} {out : List (Output η)}

/-- Only an arriving request and the end of a handler are replied to. -/
theorem Deed.replies_eq_nil (deed : Deed now c act d out)
    (unasked : ∀ r, act ≠ .item (.ok (.request r))) (unfinished : ∀ how, act ≠ .input (.finished how)) :
    replies out = [] := by
  refine List.filterMap_eq_nil_iff.mpr fun m held => ?_
  cases deed.said m held with
  | declined => exact absurd rfl (unasked _)
  | finished first => exact absurd rfl (unfinished _)
  | _ => rfl

theorem Deed.queue_kept (deed : Deed now c act d out)
    (unasked : ∀ r, act ≠ .item (.ok (.request r))) (unfinished : ∀ how, act ≠ .input (.finished how)) :
    d.queue = c.queue ∨ c.Ceases d := by
  cases deed with
  | idle alike unheard => exact .inl alike.queue
  | left running up => exact .inr ⟨running, rfl, rfl⟩
  | refused taken handshake fails => exact .inr ⟨not_exited_of_isHandshake handshake, rfl, rfl⟩
  | called handled => exact absurd rfl (unasked _)
  | finished first => exact absurd rfl (unfinished _)
  | lapsed taken lapse => exact lapse.queue
  | ceased running ending => exact .inr ⟨running, rfl, rfl⟩
  | _ => exact .inl rfl

theorem Deed.serves (deed : Deed now c act d out) : Serves c act d out := by
  by_cases asked : ∃ r, act = .item (.ok (.request r))
  · obtain ⟨r, rfl⟩ := asked
    cases deed with
    | idle alike unheard => exact absurd rfl (unheard _)
    | called handled => exact .accepts rfl handled rfl rfl
    | declined unhandled => exact .declines rfl unhandled rfl (replies_reply c _)
  · have unasked : ∀ r, act ≠ .item (.ok (.request r)) := fun r same => asked ⟨r, same⟩
    by_cases finished : ∃ how, act = .input (.finished how)
    · obtain ⟨how, rfl⟩ := finished
      cases deed with
      | idle alike unheard => exact .passes unasked rfl (.inl alike.queue)
      | finished first => exact .finishes rfl first rfl (replies_reply c _)
      | ceased running ending => cases ending
      | shut gone =>
          refine .passes unasked ?_ (.inl rfl)
          rw [replies, sent_closing]
          rfl
    · have unfinished : ∀ how, act ≠ .input (.finished how) := fun how same => finished ⟨how, same⟩
      exact .passes unasked (deed.replies_eq_nil unasked unfinished)
        (deed.queue_kept unasked unfinished)

end

/-! ### Cases -/

/-- A server request and what has become of it. -/
structure Case (η : Type) where
  request : Request
  /-- The handler that was registered for the method when the request arrived. -/
  handler : Option η
  /-- How many replies had been written by then. -/
  since : Nat
  /-- How the handler ended. -/
  ending : Option HandlerEnd
  /-- The place of the reply among all that have been written. -/
  place : Option Nat

namespace Case

/-- The request as it waits in the queue, if it has a handler and no reply yet. -/
def pending? (k : Case η) : Option (Pending η) :=
  match k.handler, k.place with
  | some handler, none => some ⟨k.request.id, k.request.method, k.request.params, handler⟩
  | _, _ => none

/-- What a request has to be answered with: the value or the error that its handler came to, an
internal error if the handler panicked, and that the method is unknown if there is no handler. -/
inductive Owes (k : Case η) : Outcome → Prop
  | returned {handler : η} {value : Json} (handled : k.handler = some handler)
      (ended : k.ending = some (.returned (.ok value))) : Owes k (.ok value)
  | failed {handler : η} {e : ErrorObject} (handled : k.handler = some handler)
      (ended : k.ending = some (.returned (.error e))) : Owes k (.error e)
  | panicked {handler : η} (handled : k.handler = some handler) (ended : k.ending = some .panicked) :
      Owes k (.error ⟨-32603, "handler for " ++ k.request.method ++ " panicked", none⟩)
  | unhandled (unknown : k.handler = none) :
      Owes k (.error ⟨-32601, "Method not found: " ++ k.request.method, none⟩)

def settled (k : Case η) (how : HandlerEnd) (place : Nat) : Case η :=
  { k with ending := some how, place := some place }

/-- Whether the first of two cases was still waiting for its handler when the other, which nobody
handles, arrived. -/
def Overtaken (a b : Case η) (place : Nat) : Prop :=
  a.handler.isSome ∧ b.handler = none ∧ b.since ≤ place

/-- The reply to the first of two cases is written before the reply to the other, unless the other has
overtaken it. -/
def Before (a b : Case η) : Prop :=
  ∀ p q, a.place = some p → b.place = some q →
    (a.Overtaken b p → q < p) ∧ (¬ a.Overtaken b p → p < q)

end Case

structure Docket (η : Type) where
  cases : List (Case η)
  replies : List Response

namespace Docket

def empty : Docket η := ⟨[], []⟩

/-- The first case that waits is settled. -/
def settle (how : HandlerEnd) (place : Nat) : List (Case η) → List (Case η)
  | [] => []
  | k :: rest => if k.pending?.isSome then k.settled how place :: rest else k :: settle how place rest

/-- Enters a moment: a new case for a request that arrives, and the reply that is written. -/
def enter (d : Docket η) (m : Moment η) : Docket η :=
  let said := Connection.replies m.out
  let place := said.head?.map fun _ => d.replies.length
  { replies := d.replies ++ said
    cases :=
      match m.act, place with
      | .item (.ok (.request r)), _ =>
        d.cases ++ [⟨r, m.before.handlerFor r.method, d.replies.length, none, place⟩]
      | .input (.finished how), some n => settle how n d.cases
      | _, _ => d.cases }

def waiting (d : Docket η) : List (Pending η) := d.cases.filterMap Case.pending?

end Docket

def docketOf (moments : List (Moment η)) : Docket η := moments.foldl Docket.enter .empty

def docket (config : ClientConfig) (history : List (Time × Input η)) : Docket η :=
  docketOf (past config history)

/-! ### Entering one moment -/

namespace Case

theorem pending?_eq_some {k : Case η} {p : Pending η} (h : k.pending? = some p) :
    k.place = none ∧ ∃ handler, k.handler = some handler ∧
      p = ⟨k.request.id, k.request.method, k.request.params, handler⟩ := by
  unfold pending? at h
  split at h
  · rename_i handler handled unanswered
    exact ⟨unanswered, handler, handled, (Option.some.inj h).symm⟩
  · cases h

theorem owes_of_ended {k : Case η} {handler : η} {how : HandlerEnd} (handled : k.handler = some handler)
    (ended : k.ending = some how) : k.Owes (outcomeOf k.request.method how) := by
  cases how with
  | returned outcome =>
      cases outcome with
      | ok value => exact .returned handled ended
      | error e => exact .failed handled ended
  | panicked => exact .panicked handled ended

theorem pending?_of_place {k : Case η} {n : Nat} (h : k.place = some n) : k.pending? = none := by
  unfold pending?
  rw [h]
  cases k.handler <;> rfl

end Case

namespace Docket

theorem settle_split {cases : List (Case η)} {p : Pending η} {rest : List (Pending η)}
    (first : cases.filterMap Case.pending? = p :: rest) (how : HandlerEnd) (place : Nat) :
    ∃ early k late, cases = early ++ k :: late ∧ (∀ e ∈ early, e.pending? = none) ∧
      k.pending? = some p ∧ late.filterMap Case.pending? = rest ∧
      settle how place cases = early ++ k.settled how place :: late := by
  induction cases with
  | nil => cases first
  | cons k cases ih =>
      cases waits : k.pending? with
      | none =>
          rw [List.filterMap_cons_none waits] at first
          obtain ⟨early, k', late, rfl, none, here, others, settles⟩ := ih first
          refine ⟨k :: early, k', late, rfl, ?_, here, others, ?_⟩
          · intro e held
            rcases List.mem_cons.mp held with rfl | held
            · exact waits
            · exact none e held
          · simp only [settle, waits, Option.isSome_none, Bool.false_eq_true, if_false, settles,
              List.cons_append]
      | some q =>
          rw [List.filterMap_cons_some waits] at first
          obtain ⟨rfl, rfl⟩ := List.cons.inj first
          refine ⟨[], k, cases, rfl, fun e none => (by cases none), waits, rfl, ?_⟩
          simp only [settle, waits, Option.isSome_some, if_true, List.nil_append]

/-- Whoever waits behind the first one goes on waiting. -/
theorem settle_waiting {cases : List (Case η)} {p : Pending η} {rest : List (Pending η)}
    (first : cases.filterMap Case.pending? = p :: rest) (how : HandlerEnd) (place : Nat) :
    (settle how place cases).filterMap Case.pending? = rest := by
  obtain ⟨early, k, late, -, passed, -, others, settles⟩ := settle_split first how place
  have answered : (k.settled how place).pending? = none := Case.pending?_of_place rfl
  rw [settles, List.filterMap_append, List.filterMap_cons_none answered,
    List.filterMap_eq_nil_iff.mpr passed, others, List.nil_append]

theorem mem_settle {how : HandlerEnd} {place : Nat} {cases : List (Case η)} {k : Case η}
    (h : k ∈ settle how place cases) : k ∈ cases ∨ k.place = some place := by
  induction cases with
  | nil => cases h
  | cons first cases ih =>
      unfold settle at h
      split at h
      · rcases List.mem_cons.mp h with rfl | later
        · exact .inr rfl
        · exact .inl (List.mem_cons_of_mem _ later)
      · rcases List.mem_cons.mp h with rfl | later
        · exact .inl List.mem_cons_self
        · exact (ih later).imp_left (List.mem_cons_of_mem _)

theorem settle_requests (how : HandlerEnd) (place : Nat) (cases : List (Case η)) :
    (settle how place cases).map Case.request = cases.map Case.request := by
  induction cases with
  | nil => rfl
  | cons k cases ih =>
      unfold settle
      split
      · rfl
      · rw [List.map_cons, List.map_cons, ih]

variable {m : Moment η} (d : Docket η)

theorem enter_request {r : Request} (own : m.act = .item (.ok (.request r))) :
    d.enter m =
      ⟨d.cases ++ [⟨r, m.before.handlerFor r.method, d.replies.length, none,
          (Connection.replies m.out).head?.map fun _ => d.replies.length⟩],
        d.replies ++ Connection.replies m.out⟩ := by
  simp only [enter, own]

theorem enter_finished {how : HandlerEnd} {r : Response} (own : m.act = .input (.finished how))
    (said : Connection.replies m.out = [r]) :
    d.enter m = ⟨settle how d.replies.length d.cases, d.replies ++ [r]⟩ := by
  simp only [enter, own, said, List.head?_cons, Option.map_some]

theorem enter_silent (other : ∀ r, m.act ≠ .item (.ok (.request r)))
    (silent : Connection.replies m.out = []) : d.enter m = d := by
  unfold enter
  rw [silent]
  dsimp only [List.head?_nil, Option.map_none]
  rw [List.append_nil]
  split
  · rename_i r own
    exact absurd own (other r)
  · rename_i none
    cases none
  · rfl

end Docket

/-! ### What holds of a docket -/

/-- Every reply belongs to one case and says what that case has to be answered with, and the replies
stand in the order of their cases, as far as no case is overtaken. -/
structure Docket.Sound (d : Docket η) : Prop where
  ordered : d.cases.Pairwise Case.Before
  /-- While a case waits, no later one with a handler is answered. -/
  served : d.cases.Pairwise fun a b => a.pending?.isSome → b.handler.isSome → b.place = none
  since : ∀ k ∈ d.cases, k.since ≤ d.replies.length
  answered : ∀ k ∈ d.cases, ∀ p, k.place = some p →
    ∃ outcome, k.Owes outcome ∧ d.replies[p]? = some ⟨k.request.id, outcome⟩
  prompt : ∀ k ∈ d.cases, k.handler = none → ∀ p, k.place = some p → p = k.since
  placed : (d.cases.filterMap Case.place).Perm (List.range d.replies.length)

namespace Docket.Sound

variable {d : Docket η}

theorem empty : (Docket.empty : Docket η).Sound :=
  ⟨.nil, .nil, fun _ none => (by cases none), fun _ none => (by cases none),
    fun _ none => (by cases none), List.Perm.refl _⟩

theorem place_lt (h : d.Sound) {k : Case η} (held : k ∈ d.cases) {p : Nat}
    (place : k.place = some p) : p < d.replies.length := by
  obtain ⟨outcome, -, there⟩ := h.answered k held p place
  exact (List.getElem?_eq_some_iff.mp there).1

/-- Replies that have been written stay where they are. -/
theorem answered_later (h : d.Sound) (more : List Response) {k : Case η} (held : k ∈ d.cases)
    {p : Nat} (place : k.place = some p) :
    ∃ outcome, k.Owes outcome ∧ (d.replies ++ more)[p]? = some ⟨k.request.id, outcome⟩ := by
  obtain ⟨outcome, own, there⟩ := h.answered k held p place
  refine ⟨outcome, own, ?_⟩
  rwa [List.getElem?_append_left (h.place_lt held place)]

theorem since_later (h : d.Sound) (more : List Response) {k : Case η} (held : k ∈ d.cases) :
    k.since ≤ (d.replies ++ more).length := by
  rw [List.length_append]
  exact Nat.le_add_right_of_le (h.since k held)

/-- A request that has just arrived: it is not answered, or it is declined. -/
theorem arrived (h : d.Sound) {k : Case η} {more : List Response} (since : k.since = d.replies.length)
    (own : k.place = none ∧ more = [] ∨ k.handler = none ∧ k.place = some d.replies.length ∧
      more = [⟨k.request.id, .error (.methodNotFound k.request.method)⟩]) :
    Docket.Sound ⟨d.cases ++ [k], d.replies ++ more⟩ := by
  have last : ∀ x ∈ d.cases ++ [k], x ∈ d.cases ∨ x = k := by
    intro x held
    rcases List.mem_append.mp held with earlier | new
    · exact .inl earlier
    · exact .inr (List.mem_singleton.mp new)
  have declined : ∀ p, k.place = some p → k.handler = none ∧ p = d.replies.length ∧
      more = [⟨k.request.id, .error (.methodNotFound k.request.method)⟩] := by
    intro p place
    rcases own with ⟨unanswered, -⟩ | ⟨unhandled, here, said⟩
    · cases unanswered.symm.trans place
    · exact ⟨unhandled, Option.some.inj (place.symm.trans here), said⟩
  refine ⟨?_, ?_, ?_, ?_, ?_, ?_⟩
  · refine List.pairwise_append.mpr ⟨h.ordered, List.pairwise_singleton _ _, ?_⟩
    intro a held b new p q here there
    obtain rfl := List.mem_singleton.mp new
    obtain ⟨-, rfl, -⟩ := declined q there
    have below := h.place_lt held here
    refine ⟨fun overtaken => ?_, fun _ => below⟩
    exact absurd (since ▸ overtaken.2.2) (Nat.not_le_of_lt below)
  · refine List.pairwise_append.mpr ⟨h.served, List.pairwise_singleton _ _, ?_⟩
    intro a _ b new _ handled
    obtain rfl := List.mem_singleton.mp new
    by_contra answered
    obtain ⟨p, place⟩ := Option.ne_none_iff_exists'.mp answered
    rw [(declined p place).1] at handled
    cases handled
  · intro x held
    rcases last x held with earlier | rfl
    · exact h.since_later more earlier
    · rw [since, List.length_append]
      exact Nat.le_add_right _ _
  · intro x held p place
    rcases last x held with earlier | rfl
    · exact h.answered_later more earlier place
    · obtain ⟨unhandled, rfl, rfl⟩ := declined p place
      exact ⟨_, .unhandled unhandled, List.getElem?_concat_length⟩
  · intro x held unhandled p place
    rcases last x held with earlier | rfl
    · exact h.prompt x earlier unhandled p place
    · rw [(declined p place).2.1, since]
  · rw [List.filterMap_append, List.length_append]
    rcases own with ⟨unanswered, rfl⟩ | ⟨-, here, rfl⟩
    · rw [List.filterMap_cons_none unanswered, List.filterMap_nil, List.append_nil]
      exact h.placed
    · rw [List.filterMap_cons_some here, List.filterMap_nil, List.length_singleton, List.range_succ]
      exact h.placed.append_right [d.replies.length]

section

variable {early late : List (Case η)} {k : Case η} {p : Pending η}

theorem pairwise_replaced {R : Case η → Case η → Prop} (related : (early ++ k :: late).Pairwise R)
    {new : Case η} (before : ∀ a ∈ early, R a new) (after : ∀ b ∈ late, R k b → R new b) :
    (early ++ new :: late).Pairwise R := by
  obtain ⟨first, second, across⟩ := List.pairwise_append.mp related
  obtain ⟨following, second⟩ := List.pairwise_cons.mp second
  have replaced : ∀ b ∈ late, R new b := fun b held => after b held (following b held)
  refine List.pairwise_append.mpr ⟨first, List.pairwise_cons.mpr ⟨replaced, second⟩, ?_⟩
  intro a held b place
  rcases List.mem_cons.mp place with rfl | later
  · exact before a held
  · exact across a held b (List.mem_cons_of_mem _ later)

theorem ordered_settled (h : d.Sound) (split : d.cases = early ++ k :: late)
    (waits : k.pending? = some p) (how : HandlerEnd) :
    (early ++ k.settled how d.replies.length :: late).Pairwise Case.Before := by
  obtain ⟨-, handler, handled, -⟩ := Case.pending?_eq_some waits
  have served := h.served
  rw [split] at served
  obtain ⟨following, -⟩ := List.pairwise_cons.mp (List.pairwise_append.mp served).2.1
  refine pairwise_replaced (split ▸ h.ordered) ?_ ?_
  · intro a held p q here there
    obtain rfl := Option.some.inj there
    have known : a ∈ d.cases := split ▸ List.mem_append_left _ held
    refine ⟨fun overtaken => ?_, fun _ => h.place_lt known here⟩
    have unhandled := overtaken.2.1
    simp only [Case.settled, handled] at unhandled
    cases unhandled
  · -- Whoever was answered before, though later in the docket, has overtaken this case.
    intro b held _ p q here there
    obtain rfl := Option.some.inj here
    have known : b ∈ d.cases := split ▸ List.mem_append_right _ (List.mem_cons_of_mem _ held)
    have unhandled : b.handler = none := by
      by_contra handles
      have waiting : k.pending?.isSome := by
        rw [waits]
        rfl
      rw [following b held waiting (Option.isSome_iff_ne_none.mpr handles)] at there
      cases there
    have overtaken : (k.settled how d.replies.length).Overtaken b d.replies.length := by
      refine ⟨?_, unhandled, h.since b known⟩
      simp only [Case.settled, handled, Option.isSome_some]
    exact ⟨fun _ => h.place_lt known there, fun other => absurd overtaken other⟩

theorem placed_settled (h : d.Sound) (split : d.cases = early ++ k :: late)
    (unanswered : k.place = none) (how : HandlerEnd) :
    ((early ++ k.settled how d.replies.length :: late).filterMap Case.place).Perm
      (List.range (d.replies.length + 1)) := by
  have placed := h.placed
  rw [split, List.filterMap_append, List.filterMap_cons_none unanswered] at placed
  have here : (k.settled how d.replies.length).place = some d.replies.length := rfl
  rw [List.filterMap_append, List.filterMap_cons_some here, List.range_succ]
  calc early.filterMap Case.place ++ d.replies.length :: late.filterMap Case.place
      |>.Perm (d.replies.length :: (early.filterMap Case.place ++ late.filterMap Case.place)) :=
        List.perm_middle
    _ |>.Perm (d.replies.length :: List.range d.replies.length) := placed.cons _
    _ |>.Perm (List.range d.replies.length ++ [d.replies.length]) :=
        (List.perm_append_singleton _ _).symm

/-- The first request that waits is answered. -/
theorem settled (h : d.Sound) (split : d.cases = early ++ k :: late)
    (earlier : ∀ e ∈ early, e.pending? = none) (waits : k.pending? = some p) (how : HandlerEnd) :
    Docket.Sound ⟨early ++ k.settled how d.replies.length :: late,
      d.replies ++ [⟨p.id, outcomeOf p.method how⟩]⟩ := by
  obtain ⟨unanswered, handler, handled, rfl⟩ := Case.pending?_eq_some waits
  have own : k ∈ d.cases := split ▸ List.mem_append_right _ List.mem_cons_self
  have each : ∀ x ∈ early ++ k.settled how d.replies.length :: late,
      x ∈ d.cases ∨ x = k.settled how d.replies.length := by
    intro x held
    rw [split]
    rcases List.mem_append.mp held with held | held
    · exact .inl (List.mem_append_left _ held)
    · rcases List.mem_cons.mp held with rfl | held
      · exact .inr rfl
      · exact .inl (List.mem_append_right _ (List.mem_cons_of_mem _ held))
  refine ⟨h.ordered_settled split waits how, ?_, ?_, ?_, ?_, ?_⟩
  · refine pairwise_replaced (split ▸ h.served) ?_ ?_
    · intro a held waiting
      rw [earlier a held] at waiting
      cases waiting
    · intro b _ _ waiting
      rw [Case.pending?_of_place (n := d.replies.length) rfl] at waiting
      cases waiting
  · intro x held
    rcases each x held with earlier | rfl
    · exact h.since_later _ earlier
    · exact h.since_later (k := k) _ own
  · intro x held p place
    rcases each x held with earlier | rfl
    · exact h.answered_later _ earlier place
    · obtain rfl := Option.some.inj place
      exact ⟨_, Case.owes_of_ended handled rfl, List.getElem?_concat_length⟩
  · intro x held unhandled p place
    rcases each x held with earlier | rfl
    · exact h.prompt x earlier unhandled p place
    · simp only [Case.settled, handled] at unhandled
      cases unhandled
  · rw [List.length_append, List.length_singleton]
    exact h.placed_settled split unanswered how

end

end Docket.Sound

/-! ### The docket of a history -/

/-- The requests among the items that a server sends. -/
def requestsOf (items : List Framing.Decoded) : List Request :=
  items.filterMap fun
    | .ok (.request r) => some r
    | _ => none

def requestsAt (moments : List (Moment η)) : List Request :=
  requestsOf ((moments.map Moment.act).filterMap Act.item?)

theorem requestsAt_snoc (ms : List (Moment η)) (m : Moment η) :
    requestsAt (ms ++ [m]) = requestsAt ms ++ requestsAt [m] := by
  simp only [requestsAt, requestsOf, List.map_append, List.filterMap_append]

theorem requestsAt_request {m : Moment η} {r : Request} (own : m.act = .item (.ok (.request r))) :
    requestsAt [m] = [r] := by
  simp only [requestsAt, List.map_cons, own, List.map_nil]
  rfl

theorem requestsAt_other {m : Moment η} (other : ∀ r, m.act ≠ .item (.ok (.request r))) :
    requestsAt [m] = [] := by
  refine List.filterMap_eq_nil_iff.mpr fun item held => ?_
  obtain ⟨act, here, shown⟩ := List.mem_filterMap.mp held
  obtain rfl := List.mem_singleton.mp here
  split
  · rename_i r
    unfold Act.item? at shown
    split at shown
    · rename_i own
      exact absurd (own.trans (congrArg Act.item (Option.some.inj shown))) (other r)
    · cases shown
  · rfl

theorem docketOf_snoc (ms : List (Moment η)) (m : Moment η) :
    docketOf (ms ++ [m]) = (docketOf ms).enter m := by
  simp only [docketOf, List.foldl_append, List.foldl_cons, List.foldl_nil]

theorem Docket.waiting_snoc (cases : List (Case η)) (k : Case η) (said : List Response) :
    waiting ⟨cases ++ [k], said⟩ = cases.filterMap Case.pending? ++ k.pending?.toList := by
  cases waits : k.pending? <;> simp [waiting, waits]

namespace Moment

variable {m : Moment η}

theorem before_running (running : m.next.state ≠ .exited) : m.before.state ≠ .exited := by
  intro gone
  exact running ((congrArg Session.state (m.dealt.exited_stays gone)).trans gone)

theorem before_up (up : m.next.link = .up) : m.before.link = .up := by
  by_contra down
  exact (m.dealt.sent_of_down down).2 up

end Moment

/-- The docket of the moments that led to a connection. -/
structure Recorded (c : Connection η) (ms : List (Moment η)) : Prop where
  sound : (docketOf ms).Sound
  waiting : c.state ≠ .exited → c.link = .up → (docketOf ms).waiting = c.queue
  replied : (docketOf ms).replies = replies (written ms)
  requested : (docketOf ms).cases.map Case.request = requestsAt ms

theorem fresh_recorded (config : ClientConfig) : Recorded (fresh config : Connection η) [] :=
  ⟨.empty, fun _ _ => rfl, rfl, rfl⟩

theorem Recorded.silent {m : Moment η} {ms : List (Moment η)} (h : Recorded m.before ms)
    (other : ∀ r, m.act ≠ .item (.ok (.request r))) (nothing : replies m.out = [])
    (queue : m.next.state ≠ .exited → m.next.link = .up → m.next.queue = m.before.queue) :
    Recorded m.next (ms ++ [m]) := by
  have same : docketOf (ms ++ [m]) = docketOf ms := by
    rw [docketOf_snoc, Docket.enter_silent _ other nothing]
  refine ⟨same ▸ h.sound, fun running up => ?_, ?_, ?_⟩
  · rw [same, queue running up]
    exact h.waiting (Moment.before_running running) (Moment.before_up up)
  · rw [same, written_append, written_singleton, replies_append, nothing, List.append_nil]
    exact h.replied
  · rw [same, requestsAt_snoc, requestsAt_other other, List.append_nil]
    exact h.requested

theorem Recorded.request {m : Moment η} {ms : List (Moment η)} (h : Recorded m.before ms)
    {r : Request} (own : m.act = .item (.ok (.request r)))
    (said : replies m.out = [] ∨ m.before.handlerFor r.method = none ∧
      replies m.out = [⟨r.id, .error (.methodNotFound r.method)⟩])
    (queue : m.next.queue = m.before.queue ++ (m.before.handlerFor r.method).toList.map
      fun handler => ⟨r.id, r.method, r.params, handler⟩) : Recorded m.next (ms ++ [m]) := by
  have entered := (docketOf_snoc ms m).trans (Docket.enter_request _ own)
  refine ⟨?_, fun running up => ?_, ?_, ?_⟩
  · rw [entered]
    refine h.sound.arrived rfl ?_
    rcases said with nothing | ⟨unhandled, declined⟩
    · rw [nothing]
      exact .inl ⟨rfl, rfl⟩
    · rw [declined]
      exact .inr ⟨unhandled, rfl, rfl⟩
  · have before := h.waiting (Moment.before_running running) (Moment.before_up up)
    rw [entered, Docket.waiting_snoc, queue, ← before]
    refine congrArg ((docketOf ms).waiting ++ ·) ?_
    rcases said with nothing | ⟨unhandled, -⟩
    · rw [nothing]
      cases m.before.handlerFor r.method <;> rfl
    · rw [unhandled]
      rfl
  · rw [entered, written_append, written_singleton, replies_append, ← h.replied]
  · rw [entered, requestsAt_snoc, requestsAt_request own, List.map_append, h.requested]
    rfl

theorem Recorded.finish {m : Moment η} {ms : List (Moment η)} (h : Recorded m.before ms)
    {how : HandlerEnd} {p : Pending η} {rest : List (Pending η)}
    (own : m.act = .input (.finished how)) (first : m.before.queue = p :: rest)
    (queue : m.next.queue = rest) (running : m.before.state ≠ .exited) (up : m.before.link = .up)
    (said : replies m.out = [⟨p.id, outcomeOf p.method how⟩]) : Recorded m.next (ms ++ [m]) := by
  have waiting := (h.waiting running up).trans first
  have entered := (docketOf_snoc ms m).trans (Docket.enter_finished _ own said)
  refine ⟨?_, fun _ _ => ?_, ?_, ?_⟩
  · obtain ⟨early, k, late, split, passed, waits, -, settles⟩ :=
      Docket.settle_split waiting how (docketOf ms).replies.length
    rw [entered, settles]
    exact h.sound.settled split passed waits how
  · rw [entered, queue]
    exact Docket.settle_waiting waiting how _
  · rw [entered, written_append, written_singleton, replies_append, said, h.replied]
  · have silent : ∀ r, m.act ≠ .item (.ok (.request r)) := by
      intro r same
      rw [own] at same
      cases same
    rw [entered, Docket.settle_requests, requestsAt_snoc, requestsAt_other silent, List.append_nil]
    exact h.requested

theorem Recorded.moment {m : Moment η} {ms : List (Moment η)} (h : Recorded m.before ms) :
    Recorded m.next (ms ++ [m]) := by
  cases m.dealt.serves with
  | @accepts r handler own handled queue silent =>
      refine h.request own (.inl silent) ?_
      rw [queue, handled]
      rfl
  | @declines r own unhandled queue said =>
      refine h.request own ?_ ?_
      · rw [said, delivered?]
        split
        · exact .inr ⟨unhandled, rfl⟩
        · exact .inl rfl
      · rw [queue, unhandled]
        exact (List.append_nil _).symm
  | @finishes p rest how own first queue said =>
      by_cases both : m.before.state ≠ .exited ∧ m.before.link = .up
      · rw [delivered?, if_pos both] at said
        exact h.finish own first queue both.1 both.2 said
      · rw [delivered?, if_neg both] at said
        refine h.silent (fun r same => ?_) said fun running up => ?_
        · rw [own] at same
          cases same
        · exact absurd ⟨Moment.before_running running, Moment.before_up up⟩ both
  | passes other silent queue =>
      refine h.silent other silent fun running _ => ?_
      exact queue.resolve_right fun ends => running ends.2.1

theorem past_recorded (config : ClientConfig) (history : List (Time × Input η)) :
    Recorded (after config history) (past config history) :=
  past_after (P := Recorded) (fresh_recorded config) fun _ _ _ h => h.moment

/-! ### The order of replies -/

/-- The docket of a history says what has happened: each request that has arrived has a case, each
reply that has been written belongs to one of them and says what that one has to be answered with. -/
structure Docketed (config : ClientConfig) (history : List (Time × Input η)) : Prop where
  requested : (docket config history).cases.map Case.request =
    requestsOf ((fresh config : Connection η).arrived history)
  replied : (docket config history).replies = replies (outputs config history)
  placed : ((docket config history).cases.filterMap Case.place).Perm
    (List.range (docket config history).replies.length)
  answered : ∀ k ∈ (docket config history).cases, ∀ p, k.place = some p →
    ∃ outcome, k.Owes outcome ∧
      (docket config history).replies[p]? = some ⟨k.request.id, outcome⟩

theorem docketed (config : ClientConfig) (history : List (Time × Input η)) :
    Docketed config history := by
  obtain ⟨sound, -, replied, requested⟩ := past_recorded config history
  rw [written_past] at replied
  rw [requestsAt, past, moments_items] at requested
  exact ⟨requested, replied, sound.placed, sound.answered⟩

structure InTurn (config : ClientConfig) (history : List (Time × Input η)) : Prop
    extends Docketed config history where
  /-- A request that nobody handles is answered when it arrives. -/
  prompt : ∀ k ∈ (docket config history).cases, k.handler = none →
    ∀ p, k.place = some p → p = k.since
  /-- The replies stand in the order of the requests, unless a request that nobody handles has
  overtaken one whose handler had not finished. -/
  ordered : (docket config history).cases.Pairwise Case.Before

theorem in_turn (config : ClientConfig) (history : List (Time × Input η)) : InTurn config history := by
  have sound := (past_recorded config history).sound
  exact { docketed config history with prompt := sound.prompt, ordered := sound.ordered }

/-- A request with a handler arrives together with one that nobody handles, and its handler finishes
later. -/
def overtaking : List (Time × Input Unit) :=
  [(0, .command (.onRequest "a" ())),
    (1, .received (Framing.frame (Utf8.encode
        "\x7b\"jsonrpc\":\"2.0\",\"id\":1,\"method\":\"a\"\x7d")
      ++ Framing.frame (Utf8.encode
        "\x7b\"jsonrpc\":\"2.0\",\"id\":2,\"method\":\"b\"\x7d"))),
    (2, .finished (.returned (.ok .null)))]

theorem overtaking_out_of_order :
    (requestsOf ((fresh .standard).arrived overtaking)).map Request.id = [.number 1, .number 2] ∧
      (replies (outputs .standard overtaking)).map Response.id = [.number 2, .number 1] ∧
      ¬ (docket .standard overtaking).cases.Pairwise fun a b =>
        ∀ p q, a.place = some p → b.place = some q → p < q := by
  have places : (docket .standard overtaking).cases.map Case.place = [some 1, some 0] := by
    decide +kernel
  refine ⟨by decide +kernel, by decide +kernel, fun ordered => ?_⟩
  have first : ((docket .standard overtaking).cases.map Case.place).Pairwise fun x y =>
      ∀ p q, x = some p → y = some q → p < q := List.pairwise_map.mpr ordered
  rw [places] at first
  exact absurd (List.rel_of_pairwise_cons first List.mem_cons_self 1 0 rfl rfl) (by decide)

end Connection
end ServerProbe
