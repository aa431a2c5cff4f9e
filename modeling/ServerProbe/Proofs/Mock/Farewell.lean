import ServerProbe.Proofs.Connection.Stopping
import ServerProbe.Proofs.Mock.Attendance
import ServerProbe.Proofs.Mock.Stretch
/-!
How a client stops its server. Between the three commands of a shutdown the server may say what it
likes, and handlers and deadlines go on; whatever they do, the client asks for the shutdown, recalls
the calls that time out, takes its leave, and is silent from then on.
-/

namespace ServerProbe.Mock

open Connection (Concludes Over Stopping after outputs recallNotice resolutions resolvedIds sent stopCall
  timedOut unprompted)

variable {ρ : Type}

/-! ### What a connection gets in a stretch -/

namespace World

theorem foldl_take_kept (out : List (Output Handler)) (w : World ρ) :
    (out.foldl take w).replies = (resolutions out).reverse ++ w.replies ∧
      (out.foldl take w).stopped = w.stopped := by
  induction out generalizing w with
  | nil => exact ⟨rfl, rfl⟩
  | cons o out ih =>
      obtain ⟨replies, stopped⟩ := ih (w.take o)
      rw [List.foldl_cons, replies, stopped, Connection.resolutions_cons, List.reverse_append,
        List.append_assoc]
      cases o <;> exact ⟨rfl, rfl⟩

theorem turn_kept (w : World ρ) (t : Turn Handler) :
    (w.turn t).replies = (resolutions t.2).reverse ++ w.replies ∧ (w.turn t).stopped = w.stopped := by
  unfold turn
  dsimp only
  split
  · exact foldl_take_kept t.2 _
  · exact foldl_take_kept t.2 _

end World

namespace Beat

/-- What the connection gets in a beat. One that has stopped gets no commands. -/
def inputs : Beat ρ → List (Time × Input Handler)
  | own ⟨w, .command c⟩ => if w.stopped then [] else [(w.now, .command c)]
  | other w i => [(w.now, i)]
  | _ => []

/-- What happens elsewhere leaves the replies to calls as they are. -/
def KeepsReplies : Beat ρ → Prop
  | aside w w' _ => w'.replies = w.replies
  | _ => True

/-- The client makes no calls but those of the routine, and the connection is not closed. -/
def Calm : Beat ρ → Prop
  | own _ => True
  | other _ i => i.Calm
  | aside w w' _ => w'.replies = w.replies ∧ w'.stopped = w.stopped

/-- What happens elsewhere does not stop the connection. -/
def KeepsLive : Beat ρ → Prop
  | aside w w' _ => w'.stopped = w.stopped
  | _ => True

theorem Calm.keepsReplies {b : Beat ρ} (calm : b.Calm) : b.KeepsReplies := by
  cases b with
  | aside w w' kept => exact calm.1
  | _ => trivial

theorem Calm.keepsLive {b : Beat ρ} (calm : b.Calm) : b.KeepsLive := by
  cases b with
  | aside w w' kept => exact calm.2
  | _ => trivial

theorem inputs_live {w : World ρ} (live : w.stopped = false) (c : Command Handler) :
    (own ⟨w, .command c⟩).inputs = [(w.now, .command c)] := by
  rw [inputs, live]
  rfl

/-- How a world comes out of a turn of its connection. -/
structure Comes (w v : World ρ) (t : Turn Handler) : Prop where
  connection : v.connection = t.1
  replies : v.replies = (resolutions t.2).reverse ++ w.replies
  stopped : v.stopped = w.stopped

theorem comes_turn (w : World ρ) (t : Turn Handler) : Comes w (w.turn t) t :=
  ⟨w.turn_connection t, (w.turn_kept t).1, (w.turn_kept t).2⟩

theorem comes_same (w : World ρ) : Comes w w (w.connection.run []) := ⟨rfl, rfl, rfl⟩

theorem run_single (c : Connection Handler) (now : Time) (i : Input Handler) :
    c.run [(now, i)] = c.step now i := by
  rw [Connection.run_cons, Connection.run_nil, List.append_nil]

theorem comes_input (w : World ρ) (i : Input Handler) :
    Comes w (w.input i) (w.connection.run [(w.now, i)]) := by
  rw [run_single]
  exact comes_turn w _

theorem comes_own (a : Ask ρ) : Comes a.world a.next (a.world.connection.run (own a).inputs) := by
  obtain ⟨w, q⟩ := a
  cases q with
  | command c =>
      by_cases stopped : w.stopped = true
      · have next : Ask.next ⟨w, .command c⟩ = w := by
          simp only [Ask.next, World.answer, stopped, if_true]
        rw [next, inputs, if_pos stopped]
        exact comes_same w
      · have next : Ask.next ⟨w, .command c⟩ = w.input (.command c) := by
          simp only [Ask.next, World.answer, stopped]
          rfl
        rw [next, inputs, if_neg stopped]
        exact comes_input w _
  | writeFile path text =>
      simp only [Ask.next, World.answer]
      split <;> exact ⟨rfl, rfl, rfl⟩
  | makeDirectory path =>
      simp only [Ask.next, World.answer]
      split <;> exact ⟨rfl, rfl, rfl⟩
  | _ => exact comes_same w

theorem next_connection (b : Beat ρ) : b.next.connection = (b.world.connection.run b.inputs).1 := by
  cases b with
  | own a => exact (comes_own a).connection
  | other w i => exact (comes_input w i).connection
  | aside w w' kept => exact kept

theorem next_replies {b : Beat ρ} (keeps : b.KeepsReplies) : b.next.replies =
    (resolutions (b.world.connection.run b.inputs).2).reverse ++ b.world.replies := by
  cases b with
  | own a => exact (comes_own a).replies
  | other w i => exact (comes_input w i).replies
  | aside w w' kept => exact keeps

theorem next_stopped {b : Beat ρ} (keeps : b.KeepsLive) : b.next.stopped = b.world.stopped := by
  cases b with
  | own a => exact (comes_own a).stopped
  | other w i => exact (comes_input w i).stopped
  | aside w w' kept => exact keeps

end Beat

/-- What the connection gets in a stretch of beats. -/
def history (beats : List (Beat ρ)) : List (Time × Input Handler) := beats.flatMap Beat.inputs

/-- What the connection of a world puts out in a stretch of beats. -/
def told (w : World ρ) (beats : List (Beat ρ)) : List (Output Handler) :=
  (w.connection.run (history beats)).2

namespace Flow

variable {u v w : World ρ} {b : Beat ρ} {beats early late : List (Beat ρ)}

theorem connection (flow : Flow w beats v) : v.connection = (w.connection.run (history beats)).1 := by
  induction flow with
  | nil => rfl
  | @cons b beats v later ih =>
      rw [history, List.flatMap_cons, Connection.run_append, ← b.next_connection]
      exact ih

theorem told_append (flow : Flow w early v) (late : List (Beat ρ)) :
    told w (early ++ late) = told w early ++ told v late := by
  rw [told, history, List.flatMap_append, Connection.run_append]
  exact congrArg (fun c : Connection Handler => told w early ++ (c.run (history late)).2) flow.connection.symm

theorem told_snoc (flow : Flow w beats b.world) :
    told w (beats ++ [b]) = told w beats ++ (b.world.connection.run b.inputs).2 := by
  rw [flow.told_append]
  simp only [told, history, List.flatMap_cons, List.flatMap_nil, List.append_nil]

theorem snoc (flow : Flow w beats b.world) : Flow w (beats ++ [b]) b.next := flow.append (.cons .nil)

theorem replies (flow : Flow w beats v) (keeps : ∀ b ∈ beats, b.KeepsReplies) :
    v.replies = (resolutions (told w beats)).reverse ++ w.replies := by
  induction flow with
  | nil => rfl
  | @cons b beats v later ih =>
      have here : Flow b.world [b] b.next := .cons .nil
      have still : Flow b.world [] b.world := .nil
      have first : told b.world [b] = (b.world.connection.run b.inputs).2 := still.told_snoc
      rw [ih fun b held => keeps b (List.mem_cons_of_mem _ held), ← List.singleton_append,
        here.told_append, Connection.resolutions_append, List.reverse_append, List.append_assoc, first,
        Beat.next_replies (keeps b List.mem_cons_self)]

theorem stopped (flow : Flow w beats v) (keeps : ∀ b ∈ beats, b.KeepsLive) : v.stopped = w.stopped := by
  induction flow with
  | nil => rfl
  | cons later ih =>
      rw [ih fun b held => keeps b (List.mem_cons_of_mem _ held)]
      exact Beat.next_stopped (keeps _ List.mem_cons_self)

end Flow

/-! ### What is known of a world that has come about -/

section Past

variable {config : ClientConfig} {files : FileTree} {past : List (Beat ρ)} {w : World ρ}

theorem Flow.led (flow : Flow (World.fresh config files) past w) :
    w.connection = after config (history past) := flow.connection

/-- A reply is that to a call that was issued. -/
theorem Flow.replied (flow : Flow (World.fresh config files) past w)
    (keeps : ∀ b ∈ past, b.KeepsReplies) : ∀ r ∈ w.replies, r.1 < w.connection.calls.next := by
  intro r held
  rw [flow.replies keeps, List.mem_append] at held
  rcases held with given | before
  · have resolved : r.1 ∈ resolvedIds (outputs config (history past)) :=
      List.mem_map_of_mem (List.mem_reverse.mp given)
    rw [flow.led]
    exact (Connection.run_balanced config (history past)).given resolved
  · cases before

end Past

/-! ### The routine -/

abbrev shutdownQuestion (timeout : Span) : Question Handler :=
  .command (.request Method.shutdown none (some timeout))

abbrev exitQuestion : Question Handler := .command (.notify Method.exit none)

/-- The result of a shutdown that was answered, by what became of the exit notification. -/
def stopResult (answer : Answered) (left : Except Failure Unit) : Except Failure Unit :=
  match answer with
  | .error failure => .error failure
  | .ok _ => left

def closing (answer : Answered) (left : Except Failure Unit) : Routine Handler (Except Failure Unit) :=
  .ask (.command .close) fun _ => .done (stopResult answer left)

/-- What a client does once its shutdown has been answered. -/
def parting (answer : Answered) : Routine Handler (Except Failure Unit) := do
  let left ← if Client.exitFollows answer then Client.notify Method.exit none else pure (.ok ())
  Client.close
  match answer with
  | .error failure => return .error failure
  | .ok _ => return left

theorem parting_eq {answer : Answered} (follows : Client.exitFollows answer = true) :
    parting answer = .ask exitQuestion fun left =>
      closing answer (Client.flatten left) := by
  have valid : Method.check Method.exit = .ok () := if_pos (by decide)
  rw [parting, if_pos follows, Client.notify, valid]
  cases answer <;> rfl

theorem command_prompt (c : Command Handler) : Prompt ρ (.command c) := by
  intro w
  rw [World.answer]
  split <;> rfl

theorem closing_prompt (answer : Answered) (left : Except Failure Unit) :
    Confined (Prompt ρ) (closing answer left) := .ask (command_prompt _) fun _ => .done

theorem parting_prompt {answer : Answered} (follows : Client.exitFollows answer = true) :
    Confined (Prompt ρ) (parting answer) := by
  rw [parting_eq follows]
  exact .ask (command_prompt _) fun left => closing_prompt answer (Client.flatten left)

/-! ### How far a shutdown is -/

/-- What has ended the shutdown call, among the beats since it was made. -/
def Caused (w : World ρ) (timeout : Span) (beats : List (Beat ρ)) (answer : Answered) : Prop :=
  ∃ u i, .other u i ∈ beats ∧ ∃ act ∈ u.connection.acts i,
    Concludes w.connection.calls.next (stopCall w.now timeout) u.now act answer

theorem Caused.mono {w : World ρ} {timeout : Span} {some all : List (Beat ρ)} {answer : Answered}
    (h : Caused w timeout some answer) (sub : some ⊆ all) : Caused w timeout all answer := by
  obtain ⟨u, i, held, rest⟩ := h
  exact ⟨u, i, sub held, rest⟩

/-- The beats since a shutdown was asked for have left the connection shutting down. -/
structure ShuttingDown (w : World ρ) (timeout : Span) (beats : List (Beat ρ)) (v : World ρ) : Prop where
  flow : Flow w beats v
  calm : ∀ b ∈ beats, b.Calm
  stopping : Stopping w.connection.calls.next (stopCall w.now timeout) w.connection.calls.outstanding
    v.connection (told w beats)
  caused : ∀ answer, (w.connection.calls.next, answer) ∈ resolutions (told w beats) →
    Caused w timeout beats answer

/-- Among the beats is the exit notification, sent once the shutdown had this answer. -/
def Left (w : World ρ) (timeout : Span) (beats : List (Beat ρ)) (answer : Answered) : Prop :=
  ∃ early u late, ShuttingDown w timeout early u ∧
    (w.connection.calls.next, answer) ∈ resolutions (told w early) ∧
    beats = early ++ .own ⟨u, exitQuestion⟩ :: late

/-- The phases of a shutdown, from the moment that its request has been sent. -/
inductive Phase (w : World ρ) (timeout : Span) (beats : List (Beat ρ)) (v : World ρ)
    (s : Routine Handler (Except Failure Unit)) : Prop
  | waits (shutting : ShuttingDown w timeout beats v)
      (same : s = .ask (.reply w.connection.calls.next) parting)
  | parts {answer : Answered} (shutting : ShuttingDown w timeout beats v)
      (answered : (w.connection.calls.next, answer) ∈ resolutions (told w beats))
      (same : s = parting answer)
  | closes {answer : Answered} (left : Left w timeout beats answer) (same : s = closing answer (.ok ()))
  | ends {answer : Answered} (left : Left w timeout beats answer)
      (same : s = .done (stopResult answer (.ok ())))

section Shutdown

variable {w u v : World ρ} {timeout : Span} {beats : List (Beat ρ)} {b : Beat ρ} {answer : Answered}
  {s t : Routine Handler (Except Failure Unit)}

namespace ShuttingDown

theorem lives (h : ShuttingDown w timeout beats v) (live : w.stopped = false) : v.stopped = false :=
  (h.flow.stopped fun b held => (h.calm b held).keepsLive).trans live

theorem idle (h : ShuttingDown w timeout beats b.world) (calm : b.Calm) (none : b.inputs = []) :
    ShuttingDown w timeout (beats ++ [b]) b.next := by
  have same : told w (beats ++ [b]) = told w beats := by
    rw [h.flow.told_snoc, none, Connection.run_nil, List.append_nil]
  refine ⟨h.flow.snoc, List.forall_mem_append.mpr ⟨h.calm, List.forall_mem_singleton.mpr calm⟩, ?_,
    fun answer shown => ?_⟩
  · rw [same, b.next_connection, none]
    exact h.stopping
  · rw [same] at shown
    exact (h.caused answer shown).mono (List.subset_append_left _ _)

theorem other (h : ShuttingDown w timeout beats u) {i : Input Handler} (calm : i.Calm) :
    ShuttingDown w timeout (beats ++ [.other u i]) (u.input i) := by
  have flow : Flow w beats (Beat.other u i).world := h.flow
  have more : told w (beats ++ [.other u i]) = told w beats ++ (u.connection.step u.now i).2 := by
    rw [flow.told_snoc]
    exact congrArg (fun t : Turn Handler => told w beats ++ t.2) (Beat.run_single _ _ _)
  obtain ⟨stopping, concludes⟩ := h.stopping.step calm u.now
  refine ⟨flow.snoc, List.forall_mem_append.mpr ⟨h.calm, List.forall_mem_singleton.mpr calm⟩, ?_,
    fun answer shown => ?_⟩
  · rw [more, World.input_connection]
    exact stopping
  · rw [more, Connection.resolutions_append, List.mem_append] at shown
    rcases shown with before | now_shown
    · exact (h.caused answer before).mono (List.subset_append_left _ _)
    · obtain ⟨act, held, ends⟩ := concludes answer now_shown
      exact ⟨u, i, List.mem_append_right _ (List.mem_singleton_self _), act, held, ends⟩

theorem elsewhere (h : ShuttingDown w timeout beats b.world) (calm : b.Calm) (foreign : b.ask? = none) :
    ShuttingDown w timeout (beats ++ [b]) b.next := by
  cases b with
  | own a => cases foreign
  | other u i => exact h.other calm
  | aside u u' kept => exact h.idle calm rfl

/-- Whatever has become of a shutdown, the exit notification follows. -/
theorem follows (h : ShuttingDown w timeout beats v)
    (answered : (w.connection.calls.next, answer) ∈ resolutions (told w beats)) :
    Client.exitFollows answer = true := by
  obtain ⟨u, i, -, act, -, concludes⟩ := h.caused answer answered
  cases concludes with
  | responded outcome => cases outcome <;> rfl
  | timedOut due => rfl

/-- An answer that a client has been given is that of the shutdown. -/
theorem answered_of_reply (h : ShuttingDown w timeout beats v)
    (replied : ∀ r ∈ w.replies, r.1 < w.connection.calls.next)
    (found : (v.answer (.reply w.connection.calls.next)).2 = some answer) :
    (w.connection.calls.next, answer) ∈ resolutions (told w beats) := by
  obtain ⟨⟨id, given⟩, held, rfl⟩ := Option.map_eq_some_iff.mp found
  have listed := List.mem_of_find?_eq_some held
  obtain rfl : id = w.connection.calls.next := by simpa using List.find?_some held
  rw [h.flow.replies fun b held => (h.calm b held).keepsReplies, List.mem_append] at listed
  rcases listed with given | before
  · exact List.mem_reverse.mp given
  · exact absurd (replied _ before) (Nat.lt_irrefl _)

/-- Once the shutdown call is not outstanding any more, its answer is there. -/
theorem reply_of_answered (h : ShuttingDown w timeout beats v)
    (answered : (w.connection.calls.next, answer) ∈ resolutions (told w beats)) :
    ∃ given, (v.answer (.reply w.connection.calls.next)).2 = some given := by
  have listed : (w.connection.calls.next, answer) ∈ v.replies := by
    rw [h.flow.replies fun b held => (h.calm b held).keepsReplies]
    exact List.mem_append_left _ (List.mem_reverse.mpr answered)
  have found : (v.replies.find? fun r => r.1 == w.connection.calls.next).isSome :=
    List.find?_isSome.mpr ⟨_, listed, beq_self_eq_true _⟩
  obtain ⟨r, same⟩ := Option.isSome_iff_exists.mp found
  exact ⟨r.2, by rw [World.answer, same]; rfl⟩

end ShuttingDown

theorem Left.snoc (h : Left w timeout beats answer) (b : Beat ρ) : Left w timeout (beats ++ [b]) answer := by
  obtain ⟨early, u, late, shutting, answered, rfl⟩ := h
  exact ⟨early, u, late ++ [b], shutting, answered, by rw [List.append_assoc, List.cons_append]⟩

/-! ### A shutdown goes through its phases -/

theorem Phase.elsewhere (h : Phase w timeout beats b.world s) (calm : b.Calm) (foreign : b.ask? = none) :
    Phase w timeout (beats ++ [b]) b.next s := by
  cases h with
  | waits shutting same => exact .waits (shutting.elsewhere calm foreign) same
  | parts shutting answered same =>
      refine .parts (shutting.elsewhere calm foreign) ?_ same
      rw [shutting.flow.told_snoc, Connection.resolutions_append]
      exact List.mem_append_left _ answered
  | closes left same => exact .closes (left.snoc b) same
  | ends left same => exact .ends (left.snoc b) same

theorem answer_command {u : World ρ} (live : u.stopped = false) (c : Command Handler) :
    (u.answer (.command c)).2 = some (some (u.connection.handle u.now c).1) := by
  simp only [World.answer, live, Bool.false_eq_true, if_false]

theorem Phase.own {q : Question Handler} {next : q.Answer → Routine Handler (Except Failure Unit)}
    {given : q.Answer} (live : w.stopped = false) (replied : ∀ r ∈ w.replies, r.1 < w.connection.calls.next)
    (h : Phase w timeout beats u (.ask q next)) (answered : (u.answer q).2 = some given) :
    Phase w timeout (beats ++ [.own ⟨u, q⟩]) (u.answer q).1 (next given) := by
  cases h with
  | waits shutting same =>
      cases same
      have still : ShuttingDown w timeout (beats ++ [.own ⟨u, .reply w.connection.calls.next⟩]) u :=
        shutting.idle (b := .own ⟨u, .reply w.connection.calls.next⟩) trivial rfl
      refine .parts still ?_ rfl
      have there := shutting.answered_of_reply replied answered
      rw [shutting.flow.told_append, Connection.resolutions_append]
      exact List.mem_append_left _ there
  | @parts answer shutting there same =>
      rw [parting_eq (shutting.follows there)] at same
      cases same
      -- The session is shutting down on a link that is up, so the exit notification is not refused.
      have live : u.stopped = false := shutting.lives live
      rw [answer_command live, shutting.stopping.leaves] at answered
      obtain rfl := Option.some.inj answered
      exact .closes ⟨beats, u, [], shutting, there, rfl⟩ rfl
  | closes left same =>
      cases same
      exact .ends (left.snoc _) rfl
  | ends left same => cases same

/-- The phase of the routine moves with its own questions, and stands whatever happens between them. -/
theorem Phase.along (live : w.stopped = false) (replied : ∀ r ∈ w.replies, r.1 < w.connection.calls.next)
    {later : List (Beat ρ)} (flow : Flow u later v) (h : Phase w timeout beats u s)
    (asked : Asked s (asks later) t) (calm : ∀ b ∈ later, b.Calm) :
    Phase w timeout (beats ++ later) v t := by
  induction flow generalizing beats s with
  | nil =>
      cases asked
      rwa [List.append_nil]
  | @cons b later v flow ih =>
      have rest : ∀ b ∈ later, b.Calm := fun b held => calm b (List.mem_cons_of_mem _ held)
      rw [← List.singleton_append, ← List.append_assoc]
      cases ask : b.ask? with
      | none =>
          have next := h.elsewhere (calm b List.mem_cons_self) ask
          have same : asks (b :: later) = asks later := List.filterMap_cons_none ask
          exact ih next (same ▸ asked) rest
      | some a =>
          obtain rfl := Beat.eq_own ask
          have own : Asked s (a :: asks later) t := asked
          cases own with
          | cons answered others => exact ih (h.own live replied answered) others rest

/-! ### How it ends -/

/-- How the answer to a shutdown decides on the reason for the end, and on what the caller is told. -/
inductive Verdict (id : Nat) (timeout : Span) : Answered → ExitReason → Except Failure Unit → Prop
  | acknowledged (value : Json) : Verdict id timeout (.ok value) .graceful (.ok ())
  | refused (e : Rpc.ErrorObject) :
      Verdict id timeout (.error (.refused e)) (.forced "exit sent without a shutdown response")
        (.error (.refused e))
  | unanswered :
      Verdict id timeout (.error (.timeout Method.shutdown (.number id) timeout))
        (.forced "exit sent without a shutdown response")
        (.error (.timeout Method.shutdown (.number id) timeout))

theorem ShuttingDown.verdict (h : ShuttingDown w timeout beats v)
    (answered : (w.connection.calls.next, answer) ∈ resolutions (told w beats)) :
    Verdict w.connection.calls.next timeout answer v.connection.exitReason (stopResult answer (.ok ())) := by
  have forced (failure : Failure)
      (answered : (w.connection.calls.next, .error failure) ∈ resolutions (told w beats)) :
      v.connection.exitReason = .forced "exit sent without a shutdown response" := by
    refine if_neg fun acknowledged => ?_
    obtain ⟨value, shown⟩ := h.stopping.acknowledged.mp acknowledged
    cases h.stopping.answer_unique answered shown
  obtain ⟨u, i, -, act, -, concludes⟩ := h.caused answer answered
  cases concludes with
  | responded outcome =>
      cases outcome with
      | ok value =>
          have graceful : v.connection.exitReason = .graceful :=
            if_pos (h.stopping.acknowledged.mpr ⟨value, answered⟩)
          rw [graceful]
          exact .acknowledged value
      | error e =>
          rw [forced _ answered]
          exact .refused e
  | timedOut due =>
      rw [forced _ answered]
      exact .unanswered

/-- How a shutdown has ended: what was put out before the exit notification and after it, which calls
were left then, and what came of the shutdown call. -/
structure Farewell (w : World ρ) (timeout : Span) (beats : List (Beat ρ)) (v : World ρ)
    (answer : Answered) (reason : ExitReason) (result : Except Failure Unit)
    (before after : List (Output Handler)) (left : List Nat) : Prop where
  whole : told w beats = before ++ .wrote (.notification ⟨Method.exit, none⟩) :: after
  /-- Unprompted the client says nothing but that calls timed out. -/
  said : unprompted before = .request ⟨.number w.connection.calls.next, Method.shutdown, none⟩
    :: (timedOut before).map recallNotice
  silent : sent after = []
  mute : ∀ later, sent (v.connection.run later).2 = []
  /-- Every call that was outstanding is resolved once, and so is the shutdown call. -/
  accounted : (resolvedIds before ++ left).Perm (w.connection.calls.next :: w.connection.calls.outstanding)
  failed : resolutions after = left.map fun id => (id, .error (.transportClosed "session exited"))
  answered : (w.connection.calls.next, answer) ∈ resolutions before
  caused : Caused w timeout beats answer
  verdict : Verdict w.connection.calls.next timeout answer reason result
  exited : v.connection.state = .exited
  recorded : v.connection.session.reason = some reason
  idle : v.connection.calls.outstanding = []

/-- What is put out from the exit notification on. -/
def parted (c : Connection Handler) (late : List (Beat ρ)) : List (Output Handler) :=
  c.farewell c.exitReason (.transportClosed "session exited")
    ++ ((c.ended c.exitReason).run (history late)).2

theorem ShuttingDown.run_leaving (h : ShuttingDown w timeout beats u) (live : u.stopped = false)
    (late : List (Beat ρ)) : u.connection.run (history (.own ⟨u, exitQuestion⟩ :: late)) =
      (((u.connection.ended u.connection.exitReason).run (history late)).1,
        .wrote (.notification ⟨Method.exit, none⟩) :: parted u.connection late) := by
  have given := Beat.inputs_live live (.notify Method.exit none)
  have exits := congrArg Prod.snd (h.stopping.leaves u.now)
  rw [history, List.flatMap_cons, given, Connection.run_append, Beat.run_single, Connection.step, exits]
  rfl

theorem Left.farewell (left : Left w timeout beats answer) (live : w.stopped = false)
    (flow : Flow w beats v) : ∃ reason before after remaining,
      Farewell w timeout beats v answer reason (stopResult answer (.ok ())) before after remaining := by
  obtain ⟨early, u, late, shutting, answered, rfl⟩ := left
  have leaving := shutting.run_leaving (shutting.lives live) late
  have reached : v.connection = ((u.connection.ended u.connection.exitReason).run (history late)).1 := by
    obtain ⟨-, rest⟩ := flow.split
    have here : Flow u (.own ⟨u, exitQuestion⟩ :: late) v := .cons (b := .own ⟨u, exitQuestion⟩) rest
    rw [here.connection, leaving]
  obtain ⟨gone, session, silent, nothing⟩ :=
    (Connection.ended_over u.connection u.connection.exitReason).run (history late)
  rw [← reached] at gone session
  refine ⟨_, told w early, parted u.connection late, u.connection.calls.outstanding, ?_,
    shutting.stopping.said, ?_, fun later => (gone.run later).2.2.1, ?_, ?_, answered,
    (shutting.caused answer answered).mono (List.subset_append_left _ _), shutting.verdict answered,
    gone.exited, congrArg Session.reason session, congrArg (fun calls => (calls.map Prod.fst).reverse) gone.idle⟩
  · have last : told u (.own ⟨u, exitQuestion⟩ :: late) =
        .wrote (.notification ⟨Method.exit, none⟩) :: parted u.connection late := by rw [told, leaving]
    rw [shutting.flow.told_append, last]
  · rw [parted, Connection.sent_append, Connection.sent_farewell, silent]
    rfl
  · exact ((List.reverse_perm _).append_left _).trans shutting.stopping.whole
  · rw [parted, Connection.resolutions_append, Connection.resolutions_farewell, nothing, List.append_nil]

/-- A shutdown that waits does so for its call only, and no longer than until the deadline. -/
def Awaits (w : World ρ) (timeout : Span) (v : World ρ) : Prop :=
  v.connection.calls.call? w.connection.calls.next = some (stopCall w.now timeout) ∧
    ∀ now, CallTable.Due now (stopCall w.now timeout) →
      (v.connection.step now .deadline).1.calls.call? w.connection.calls.next = none

theorem Phase.proceeds {r : Routine Handler (Except Failure Unit)}
    (replied : ∀ r ∈ w.replies, r.1 < w.connection.calls.next) (h : Phase w timeout beats v s)
    (stretch : Stretch w r beats v s) : Awaits w timeout v ∨
      ∃ (own : List (Ask ρ)) (u : World ρ) (result : Except Failure Unit),
        Stretch w r (beats ++ own.map .own) u (.done result) := by
  cases h with
  | waits shutting same =>
      -- A call that is not outstanding any more has been answered, so there is a reply to go on with.
      rcases shutting.stopping.outstanding_or_answered with held | ⟨answer, answered⟩
      · exact .inl ⟨held, fun now due => shutting.stopping.expires due⟩
      · obtain ⟨given, found⟩ := shutting.reply_of_answered answered
        have there := shutting.answered_of_reply replied found
        have asks : Stretch v s [.own ⟨v, .reply w.connection.calls.next⟩] v (parting given) := by
          rw [same]
          exact ⟨.cons (b := .own ⟨v, .reply w.connection.calls.next⟩) .nil, .cons found .nil⟩
        obtain ⟨own, u, result, ends⟩ :=
          (stretch.append asks).prompted (parting_prompt (shutting.follows there))
        rw [List.append_assoc] at ends
        exact .inr ⟨⟨v, .reply w.connection.calls.next⟩ :: own, u, result, ends⟩
  | parts shutting answered same =>
      rw [same] at stretch
      exact .inr (stretch.prompted (parting_prompt (shutting.follows answered)))
  | closes left same =>
      rw [same] at stretch
      exact .inr (stretch.prompted (closing_prompt _ _))
  | ends left same =>
      rw [same] at stretch
      exact .inr (stretch.prompted .done)

end Shutdown

/-- A session that is initialized, on a link that is up. -/
structure World.Ready (w : World ρ) : Prop where
  initialized : w.connection.state = .initialized
  up : w.connection.link = .up
  live : w.stopped = false

section Stop

variable {config : ClientConfig} {files : FileTree} {past beats : List (Beat ρ)} {w v : World ρ}
  {timeout : Span} {a : Ask ρ} {s : Routine Handler (Except Failure Unit)}

/-- A shutdown in an initialized session is sent. -/
theorem ShuttingDown.begins (reached : Flow (World.fresh config files) past w) (ready : w.Ready)
    (timeout : Span) :
    (w.answer (shutdownQuestion timeout)).2 = some (some (.ok w.connection.calls.next)) ∧
      ShuttingDown w timeout [.own ⟨w, shutdownQuestion timeout⟩]
        (w.answer (shutdownQuestion timeout)).1 := by
  have led := reached.led
  have initialized := ready.initialized
  have up := ready.up
  rw [led] at initialized up
  obtain ⟨accepted, stopping⟩ := Connection.begins_stopping initialized up w.now timeout
  rw [← led] at accepted stopping
  have flow : Flow w [.own ⟨w, shutdownQuestion timeout⟩] (w.answer (shutdownQuestion timeout)).1 :=
    .cons (b := .own ⟨w, shutdownQuestion timeout⟩) .nil
  have given := Beat.inputs_live ready.live (.request Method.shutdown none (some timeout))
  have turn : w.connection.run (history [.own ⟨w, shutdownQuestion timeout⟩]) =
      (w.connection.handle w.now (.request Method.shutdown none (some timeout))).2 := by
    rw [history, List.flatMap_cons, given, List.flatMap_nil, List.append_nil, Beat.run_single]
    rfl
  have calm : ∀ b ∈ [Beat.own ⟨w, shutdownQuestion timeout⟩], b.Calm :=
    List.forall_mem_singleton.mpr trivial
  refine ⟨?_, flow, calm, ?_, fun answer shown => ?_⟩
  · rw [answer_command ready.live, accepted]
  · rw [flow.connection, told, turn]
    exact stopping
  · rw [told, turn, Connection.handle_shutdown ready.initialized ready.up] at shown
    cases shown

end Stop

/-- A handshake, and two calls of which one is due at once. -/
def business : List (Input Handler) :=
  [.command (.request Method.initializeRequest none none),
    .received (Framing.frame (Utf8.encode
      "\x7b\"jsonrpc\":\"2.0\",\"id\":1,\"result\":\x7b\"capabilities\":\x7b\x7d\x7d\x7d")),
    .command (.request "a" none (some .zero)), .command (.request "b" none none)]

def busy : World Unit := (disturb (World.fresh .standard (.fresh [])) business).2

def succeeds : Routine Handler (Except Failure Unit) → Bool
  | .done (.ok ()) => true
  | _ => false

end ServerProbe.Mock
