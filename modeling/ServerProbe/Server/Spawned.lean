import ServerProbe.Mock.World
import ServerProbe.Shell.Interpreter
/-!
A client together with its server, which is a process that reads what the client writes and writes
what the client reads.
-/

namespace ServerProbe

open Mock (Handler World)

/-- A client and the process of its server. -/
structure Spawned (ρ : Type) where
  world : World ρ
  /-- What the process still does; nothing once it has ended. -/
  process : Option (Process ExitStatus)
  /-- What the process has not read yet. -/
  input : List Char
  /-- When the process is killed if it has not ended by itself. -/
  killAt : Option Time

namespace Spawned

variable {ρ : Type}

/-- Takes some of the input if there is enough of it, or no more to come. -/
def takeInput (s : Spawned ρ) (enough : Bool) (taken rest : List Char) :
    Spawned ρ × Option (List Char) :=
  if enough || s.world.clientClosed then ({ s with input := rest }, some taken) else (s, none)

def lookAt (files : FileTree) (path : String) : Option Bool :=
  match files.locate path with
  | .ok l => (files.find? l).map Option.isSome
  | .error _ => none

/-- Answers a call of the process, if it can be answered now. -/
def answer (s : Spawned ρ) : (call : SystemCall) → Spawned ρ × Option call.Answer
  | .readLine =>
    let (line, rest) := Shell.cutLine s.input
    s.takeInput (line.getLast? == some '\n') line rest
  | .readBytes count =>
    s.takeInput (count ≤ s.input.length) (s.input.take count) (s.input.drop count)
  | .readSome => s.takeInput (!s.input.isEmpty) s.input []
  | .readAll => s.takeInput false s.input []
  | .write bytes =>
    ({ s with world := { s.world with inbound := s.world.inbound ++ Octets.toBytes bytes } }, some ())
  | .readFile path => (s, some ((s.world.files.read path).map Octets.ofBytes))
  | .writeFile path contents =>
    match s.world.files.write path (Octets.toBytes contents) with
    | .ok files => ({ s with world := { s.world with files } }, some (.ok ()))
    | .error fault => (s, some (.error fault))
  | .look path => (s, some (lookAt s.world.files path))
  | .now => (s, some s.world.now)
  | .moment t => (s, if t ≤ s.world.now then some () else none)

/-- Runs a process for as long as its calls can be answered. -/
def drive (s : Spawned ρ) : Process ExitStatus → Spawned ρ × Process ExitStatus
  | .done status => (s, .done status)
  | .ask call next =>
    match s.answer call with
    | (s, some a) => s.drive (next a)
    | (s, none) => (s, .ask call next)

def ended (s : Spawned ρ) (status : ExitStatus) : Spawned ρ :=
  { s with
    process := none
    world := { s.world with serverGone := true, serverStatus := some status } }

def deliver (s : Spawned ρ) : Spawned ρ :=
  { s with
    input := s.input ++ s.world.outbound.flatMap fun m => Octets.ofBytes (Framing.encode m)
    world := { s.world with outbound := [] } }

/-- Runs the process, if it has not ended. -/
def advance (s : Spawned ρ) : Spawned ρ :=
  match s.process with
  | none => s
  | some process =>
    match s.drive process with
    | (s, .done status) => s.ended status
    | (s, process) => { s with process := some process }

def killSignal : Int := 9

/-- Sets the time at which a process is killed once its input has been closed, and kills it then. -/
def attend (grace : Span) (s : Spawned ρ) : Spawned ρ :=
  match s.killAt with
  | none => if s.world.clientClosed then { s with killAt := some (s.world.now + grace.nanos) } else s
  | some t =>
    if s.process.isSome && decide (t ≤ s.world.now) then s.ended ⟨none, some killSignal⟩ else s

/-- Whether the client has something to read and still reads. -/
def isBusy (s : Spawned ρ) : Bool :=
  !s.world.stopped && (!s.world.inbound.isEmpty || (s.world.serverGone && !s.world.endSeen))

/-- The moments at which something is due, for the client or the process. -/
def due (s : Spawned ρ) : List Time :=
  let sleeping : Option Time :=
    match s.process with
    | some (.ask (.moment t) _) => some t
    | _ => none
  s.world.due ++ sleeping.toList ++ (if s.process.isSome then s.killAt.toList else [])

/-- Lets the client and the process go on in turns, and time pass when neither can, until all that was
started has finished and the process has ended. -/
def run (grace : Span) : (rounds : Nat) → Spawned ρ → Spawned ρ
  | 0, s => s
  | rounds + 1, s =>
    let s := attend grace { s with world := s.world.settle }.deliver.advance
    if s.isBusy then run grace rounds s
    else if s.world.running.isEmpty && s.world.held then
      run grace rounds { s with world := { s.world with held := false } }
    else
      match (s.due.filter (s.world.now < ·)).min? with
      | none => s
      | some t =>
        if s.process.isNone && s.world.running.isEmpty then s
        else run grace rounds { s with world := { s.world with now := t } }

/-- More rounds than any session takes. -/
def greatestRun : Nat := 1000000

/-- Runs a routine as the only user of a client whose server is a process. The result is there unless
the routine waits for something that never comes. -/
def attendTo (config : ClientConfig) (files : FileTree) (process : Process ExitStatus)
    (r : Routine Handler ρ) : Option ρ × FileTree :=
  let fresh : World ρ := .fresh config files
  let world := { fresh with keepsReading := true, running := [⟨0, true, r⟩] }
  let s := run config.shutdownTimeout greatestRun ⟨world, some process, [], none⟩
  (s.world.news.finished.head?.map Prod.snd, s.world.files)

end Spawned
end ServerProbe
