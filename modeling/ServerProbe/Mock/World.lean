import ServerProbe.Framing.Stream
import ServerProbe.Mock.Handler
/-!
A client and a server in one process, with a clock that moves only when it is told to.

The world holds the connection, the bytes and messages under way, the routines that have not
finished, and what an observer of the client has seen. `World.settle` lets everything happen that can
happen at the present moment.
-/

namespace ServerProbe.Mock

open Rpc (Message Notification)

/-- A routine that was started and has not finished. -/
structure Running (ρ : Type) where
  /-- The step that started it. -/
  step : Nat
  /-- Whether the client lives on for as long as the routine runs. -/
  holdsClient : Bool
  routine : Routine Handler ρ

/-- What has been seen since the last report. -/
structure News (ρ : Type) where
  notifications : List Notification
  events : List Event
  handled : List Handled
  finished : List (Nat × ρ)

def News.none {ρ : Type} : News ρ := ⟨[], [], [], []⟩

structure World (ρ : Type) where
  now : Time
  connection : Connection Handler
  /-- Whether somebody outside the routines still holds the client. -/
  held : Bool
  /-- Whether the connection has stopped because nobody held the client any more. -/
  stopped : Bool
  files : FileTree
  /-- What the server has written and the client has not read. -/
  inbound : Bytes
  /-- Whether the client goes on reading after it has closed its side. -/
  keepsReading : Bool
  /-- Whether the server is gone. -/
  serverGone : Bool
  /-- How the server ended, if it was a process. -/
  serverStatus : Option ExitStatus
  /-- Whether the client has seen that it is. -/
  endSeen : Bool
  /-- What the client has written and the server has not read. -/
  outbound : List Message
  /-- Whether the client has closed its side. -/
  clientClosed : Bool
  notifications : Record Notification
  events : Record Event
  replies : List (Nat × Answered)
  running : List (Running ρ)
  /-- The handler that runs, which is that of the first request in the queue. -/
  front : Option (Routine Handler HandlerEnd)
  news : News ρ

namespace World

variable {ρ α : Type}

def fresh (config : ClientConfig) (files : FileTree) : World ρ :=
  { now := 0, connection := .fresh config, held := true, stopped := false, files
    inbound := [], keepsReading := false, serverGone := false, serverStatus := none, endSeen := false
    outbound := [], clientClosed := false
    notifications := .empty, events := .empty, replies := [], running := [], front := none
    news := .none }

/-! ### Outputs -/

/-- Takes in an output. Notifications and events are recorded as they are published: the channels that
carry them hold 1024 at a time, and an observer is taken never to fall so far behind that some are
dropped before they reach the record. -/
def take (w : World ρ) : Output Handler → World ρ
  | .wrote m => { w with outbound := w.outbound ++ [m] }
  | .published e =>
    { w with events := w.events.add e, news := { w.news with events := w.news.events ++ [e] } }
  | .broadcast n =>
    { w with
      notifications := w.notifications.add n
      news := { w.news with notifications := w.news.notifications ++ [n] } }
  | .noticed handler n =>
    { w with news := { w.news with handled := w.news.handled ++ handler.loggedNotice n } }
  | .called handler params =>
    { w with news := { w.news with handled := w.news.handled ++ handler.loggedRequest params } }
  | .resolved id answer => { w with replies := (id, answer) :: w.replies }
  | .closed => { w with clientClosed := true, inbound := if w.keepsReading then w.inbound else [] }

/-- Goes on with the connection after a turn. The handler that runs is dropped when the session
ends. -/
def turn (w : World ρ) (t : Turn Handler) : World ρ :=
  let ends := !w.connection.state.isExited && t.1.state.isExited
  let w := t.2.foldl take { w with connection := t.1 }
  if ends then { w with front := none } else w

def input (w : World ρ) (i : Input Handler) : World ρ := w.turn (w.connection.step w.now i)

/-! ### Routines -/

/-- The answer to a wait: what was found, or nothing once the deadline has passed. -/
def foundBy (w : World ρ) (deadline : Time) : Option α → Option (Option α)
  | some a => some (some a)
  | none => if deadline ≤ w.now then some none else none

/-- Answers a question, if it can be answered now. -/
def answer (w : World ρ) : (q : Question Handler) → World ρ × Option q.Answer
  | .command c =>
    if w.stopped then (w, some none)
    else
      let (a, t) := w.connection.handle w.now c
      (w.turn t, some (some a))
  | .session => (w, some w.connection.session)
  | .now => (w, some w.now)
  | .reply id => (w, (w.replies.find? fun r => r.1 == id).map Prod.snd)
  | .reached state =>
    let s := w.connection.state
    (w, if s == state || s.isExited then some s else none)
  | .moment t => (w, if t ≤ w.now then some () else none)
  | .seenSoFar => (w, some w.notifications.items.length)
  | .nextNotification skip wanted deadline =>
    (w, w.foundBy deadline ((w.notifications.items.drop skip).find? wanted))
  | .recordedNotification waiter wanted deadline =>
    (w, w.foundBy deadline (waiter.settle wanted w.notifications).found?)
  | .recordedEvent waiter wanted deadline =>
    (w, w.foundBy deadline (waiter.settle wanted w.events).found?)
  | .readFile path => (w, some (w.files.readText path))
  | .writeFile path text =>
    match w.files.write path (Utf8.encode text) with
    | .ok files => ({ w with files }, some (.ok ()))
    | .error fault => (w, some (.error fault))
  | .makeDirectory path =>
    match w.files.makePath path with
    | .ok files => ({ w with files }, some (.ok ()))
    | .error fault => (w, some (.error fault))
  | .resolvePath path => (w, some (w.files.resolve path))

/-- A waiter that has not found anything sleeps on what it has scanned. -/
def suspend (w : World ρ) : Routine Handler α → Routine Handler α
  | .ask (.recordedNotification waiter wanted deadline) next =>
    .ask (.recordedNotification (waiter.settle wanted w.notifications) wanted deadline) next
  | .ask (.recordedEvent waiter wanted deadline) next =>
    .ask (.recordedEvent (waiter.settle wanted w.events) wanted deadline) next
  | r => r

/-- Runs a routine for as long as its questions can be answered. -/
def drive (w : World ρ) : Routine Handler α → World ρ × Routine Handler α
  | .done a => (w, .done a)
  | .ask q next =>
    match w.answer q with
    | (w, some a) => w.drive (next a)
    | (w, none) => (w, w.suspend (.ask q next))

/-- Runs a routine, which then is among the running ones or has finished. -/
def resume (w : World ρ) (r : Running ρ) : World ρ :=
  match w.drive r.routine with
  | (w, .done a) => { w with news := { w.news with finished := w.news.finished ++ [(r.step, a)] } }
  | (w, routine) => { w with running := w.running ++ [{ r with routine }] }

/-- Runs all routines in the order in which they were started. -/
def resumeAll (w : World ρ) : World ρ := w.running.foldl resume { w with running := [] }

def frontRoutine? (w : World ρ) : Option (Routine Handler HandlerEnd) :=
  w.front <|> (w.connection.queue.head?.map fun p => p.handler.run p.params)

/-! ### Settling -/

/-- How many bytes the client reads at once. -/
def readSize : Nat := 16384

def isAbandoned (w : World ρ) : Bool := !w.held && !w.running.any fun r => r.holdsClient

/-- The next thing that can happen now besides the routines, if there is any. What has been written is
read before anything else; deadlines and the end of the stream come last. -/
def event (w : World ρ) : Bool × World ρ :=
  if w.stopped then (false, w)
  else if w.isAbandoned then (true, { w.input .abandoned with stopped := true })
  else if !w.inbound.isEmpty then
    (true, { w with inbound := w.inbound.drop readSize }.input (.received (w.inbound.take readSize)))
  else
    match w.frontRoutine?.map w.drive with
    | some (w, .done how) => (true, { w with front := none }.input (.finished how))
    | waiting =>
      let w := match waiting with
        | some (w, routine) =>
          if w.connection.queue.isEmpty then w else { w with front := some routine }
        | none => w
      if w.connection.calls.nextDeadline.1.any (· ≤ w.now) then (true, w.input .deadline)
      else if w.serverGone && !w.endSeen then (true, { w with endSeen := true }.input (.readEnded w.serverStatus))
      else (false, w)

/-- Lets everything happen that can happen now, for at most so many rounds. -/
def settleFor : Nat → World ρ → World ρ
  | 0, w => w
  | rounds + 1, w =>
    match w.resumeAll.event with
    | (true, w) => settleFor rounds w
    | (false, w) => w

/-- More rounds than any session needs at one moment, besides those for what has been written. -/
def patience : Nat := 10000

def settle (w : World ρ) : World ρ := settleFor (patience + w.inbound.length) w

def dueOf : Routine Handler α → Option Time
  | .ask (.moment t) _ => some t
  | .ask (.nextNotification _ _ deadline) _ => some deadline
  | .ask (.recordedNotification _ _ deadline) _ => some deadline
  | .ask (.recordedEvent _ _ deadline) _ => some deadline
  | _ => none

def due (w : World ρ) : List Time :=
  w.running.filterMap (fun r => dueOf r.routine) ++ (w.front.bind dueOf).toList
    ++ w.connection.calls.nextDeadline.1.toList

/-- The next moment after the present one at which something is due, but none after `latest`. -/
def nextDue (w : World ρ) (latest : Time) : Time := (w.due.filter (w.now < ·)).foldl min latest

/-- Lets time pass from one moment until another, and everything happen at its moment. -/
def passFrom (moment stop : Time) (w : World ρ) : World ρ :=
  let w := settle { w with now := moment }
  if early : moment < stop then passFrom (max (w.nextDue stop) (moment + 1)) stop w else w
termination_by stop - moment
decreasing_by exact Nat.sub_lt_sub_left early (Nat.lt_of_lt_of_le (Nat.lt_succ_self _) (Nat.le_max_right _ _))

def pass (w : World ρ) (length : Span) : World ρ := w.passFrom w.now (w.now + length.nanos)

end World
end ServerProbe.Mock
