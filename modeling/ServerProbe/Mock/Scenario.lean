import ServerProbe.Mock.Server
import ServerProbe.Routine.Client
/-!
Rehearsals: a client and a scripted server go through a list of steps, and each step has an entry in
the transcript.

In every step something is done, a millisecond passes (or as much time as the step says), and the
server reads what has come. After a scripted reply a further millisecond passes and the server reads
again.
-/

namespace ServerProbe.Mock

open Rpc (Message)

/-- What is done in a step. Results are of a type `ρ` that the writer of the scenario chooses. -/
inductive Act (ρ : Type) where
  /-- Runs a routine at once. -/
  | call (r : Routine Handler ρ)
  /-- Runs a routine at once, which may leave another that waits without holding the client. -/
  | order (r : Routine Handler (ρ × Option (Routine Handler ρ)))
  /-- Starts a routine that holds the client while it runs. -/
  | start (r : Routine Handler ρ)
  | look (view : World ρ → Option ρ)
  | advance (length : Span)
  /-- Gives up the client. -/
  | drop
  | send (bytes : Bytes) (failed : CheckFailure → ρ)
  /-- The server goes away. -/
  | hangUp
  | await (wanted : Wanted) (form : Received → ρ)
  | handshake (caps : Json) (form : Except CheckFailure Json → ρ)

structure Setup where
  config : ClientConfig
  files : FileTree
  /-- The capabilities of a handshake that is made beforehand. -/
  caps : Option Json
  script : ReplyScript
  /-- Whether messages are read in steps of their own only. -/
  manual : Bool
  readTimeout : Span

structure Entry (ρ : Type) where
  returned : Option ρ
  wire : List Received
  news : News ρ
  /-- The client's state, if it changed, or nothing if the client was dropped. -/
  state : Option (Option Session.State)

/-- A world with its scripted server, and what was last told of the client's state. -/
structure Stage (ρ : Type) where
  world : World ρ
  script : ReplyScript
  /-- Whether the server has failed to read; it then reads no more. -/
  readFailed : Bool
  shown : Option Session.State

namespace Stage

variable {ρ : Type}

/-- The client's state, while there is a client. -/
def visibleState (w : World ρ) : Option Session.State := if w.held then some w.connection.state else none

/-- Takes away what has been read by a server that goes by its script: whether it used any reply, and
the messages. -/
def takeIn : List Message → Stage ρ → Bool × List Received × Stage ρ
  | [], s => (false, [], s)
  | m :: rest, s =>
    match receive m with
    | .error failure => (false, [.error failure], { s with readFailed := true })
    | .ok (.request r) =>
      match takeReply r.method s.script with
      | none =>
        let (used, got, s) := takeIn rest s
        (used, .ok (.request r) :: got, s)
      | some (reply, script) =>
        let (_, got, s) := takeIn rest { s with script, world := s.world.play r.id reply }
        (true, .ok (.request r) :: got, s)
    | .ok m =>
      let (used, got, s) := takeIn rest s
      (used, .ok m :: got, s)

/-- Reads all that has come, unless an earlier read failed. -/
def readAll (s : Stage ρ) : Bool × List Received × Stage ρ :=
  if s.readFailed || s.world.serverGone then (false, [], s)
  else
    let (used, got, s) := takeIn s.world.outbound { s with world := { s.world with outbound := [] } }
    if s.world.clientClosed && !s.readFailed then
      (used, got ++ [.error connectionClosed], { s with readFailed := true })
    else (used, got, s)

def tick : Span := .ofMillis 1

/-- Reads, and for as long as replies are used lets time pass and reads again. -/
def readOn : Nat → Stage ρ → List Received × Stage ρ
  | 0, s => ([], s)
  | replies + 1, s =>
    match s.readAll with
    | (false, got, s) => (got, s)
    | (true, got, s) =>
      let (more, s) := readOn replies { s with world := s.world.pass tick }
      (got ++ more, s)

def proceed (setup : Setup) (length : Span) (s : Stage ρ) : List Received × Stage ρ :=
  let s := { s with world := s.world.pass length }
  if setup.manual then ([], s) else readOn (s.script.size + 1) s

/-- Does what a step says, and gives its result. -/
def act (setup : Setup) (step : Nat) (w : World ρ) : Act ρ → Option ρ × World ρ
  | .call r =>
    match w.drive r with
    | (w, .done a) => (some a, w)
    | (w, routine) => (none, { w with running := w.running ++ [⟨step, true, routine⟩] })
  | .order r =>
    match w.drive r with
    | (w, .done (a, some routine)) => (some a, { w with running := w.running ++ [⟨step, false, routine⟩] })
    | (w, .done (a, none)) => (some a, w)
    | (w, _) => (none, w)
  | .start r => (none, { w with running := w.running ++ [⟨step, true, r⟩] })
  | .look view => (view w, w)
  | .advance _ => (none, w)
  | .drop => (none, { w with held := false })
  | .send bytes failed =>
    match w.send bytes with
    | .ok w => (none, w)
    | .error failure => (some (failed failure), w)
  | .hangUp => (none, { w with serverGone := true })
  | .await wanted form =>
    let (got, w) := w.await setup.readTimeout
    (some (form (wanted.check got)), w)
  | .handshake caps form =>
    let (got, w) := w.completeHandshake setup.readTimeout caps
    (some (form got), w)

def lengthOf : Act ρ → Span
  | .advance length => length
  | _ => tick

def take (setup : Setup) (step : Nat) (a : Act ρ) (s : Stage ρ) : Entry ρ × Stage ρ :=
  let (returned, world) := act setup step s.world a
  let (wire, s) := proceed setup (lengthOf a) { s with world }
  let news := s.world.news
  let state := visibleState s.world
  let entry : Entry ρ :=
    { returned, wire, state := if state == s.shown then none else some state
      news := { news with finished := news.finished.mergeSort fun a b => a.1 ≤ b.1 } }
  (entry, { s with world := { s.world with news := .none }, shown := state })

def takeAll (setup : Setup) : (step : Nat) → List (Act ρ) → Stage ρ → List (Entry ρ) × Stage ρ
  | _, [], s => ([], s)
  | step, a :: rest, s =>
    let (entry, s) := take setup step a s
    let (entries, s) := takeAll setup (step + 1) rest s
    (entry :: entries, s)

/-- The world after a handshake, of which nothing is seen. -/
def afterHandshake (w : World ρ) (caps : Json) : World ρ :=
  let (w, _) := w.drive (Client.startRequest Method.initializeRequest (some (.obj [])) none)
  let (_, w) := w.completeHandshake .zero caps
  { w with notifications := .empty, events := .empty, news := .none, outbound := [] }

def begin (setup : Setup) : Stage ρ :=
  let fresh : World ρ := .fresh setup.config setup.files
  let world := match setup.caps with
    | some caps => afterHandshake fresh caps
    | none => fresh
  ⟨world, setup.script, false, visibleState world⟩

end Stage

/-- What came of a rehearsal: the state it began with, an entry for each step, and the steps whose
routines have not finished. -/
structure Transcript (ρ : Type) where
  start : Option Session.State
  entries : List (Entry ρ)
  unfinished : List Nat

def rehearse {ρ : Type} (setup : Setup) (acts : List (Act ρ)) : Transcript ρ :=
  let first : Stage ρ := Stage.begin setup
  let (entries, last) := Stage.takeAll setup 0 acts first
  ⟨first.shown, entries, last.world.running.map Running.step⟩

end ServerProbe.Mock
