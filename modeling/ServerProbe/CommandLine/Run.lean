import ServerProbe.CommandLine.Help
import ServerProbe.Document.Staging
import ServerProbe.Fixture.Reader
import ServerProbe.Fixture.Replay
import ServerProbe.Server.Dial
import ServerProbe.Server.Spawned
import ServerProbe.Settings.Basic
/-!
What the command line does: replaying fixtures, and inspecting a server.
-/

namespace ServerProbe.CommandLine

/-- What a run can see: the files, where the user's settings are, and the environment. -/
structure Surroundings where
  files : FileTree
  userFile : String
  environment : List (String × String)

def Surroundings.lookup (s : Surroundings) (name : String) : Option String :=
  (s.environment.find? fun e => e.1 == name).map Prod.snd

structure Outcome where
  code : Nat
  output : String
  errors : String
  files : FileTree

/-! ### Troubles -/

/-- Why a run cannot go on: what was attempted, and what that failed of, down to the first cause. -/
structure Trouble where
  message : String
  causes : List String
deriving DecidableEq, Repr

namespace Trouble

def plain (message : String) : Trouble := ⟨message, []⟩

/-- A trouble as the cause of another. -/
def within (attempt : String) (t : Trouble) : Trouble := ⟨attempt, t.message :: t.causes⟩

/-- A text whose further lines are moved under its first. -/
def hanging (first later text : String) : String :=
  first ++ ("\n" ++ later).intercalate (text.splitOn "\n")

def numbered (index : Nat) (cause : String) : String :=
  let digits := toString index
  hanging ("".pushn ' ' (5 - digits.length) ++ digits ++ ": ") "       " cause

def causeLines : List String → List String
  | [cause] => [hanging "    " "    " cause]
  | causes => causes.mapIdx numbered

/-- The text of a trouble. Causes are numbered if there are several. -/
def render (t : Trouble) : String :=
  let causes := if t.causes.isEmpty then [] else "" :: "Caused by:" :: causeLines t.causes
  "Error: " ++ "\n".intercalate (t.message :: causes) ++ "\n"

end Trouble

def ofFault (attempt : String) (fault : FileFault) : Trouble := ⟨attempt, [fault.message]⟩

def ofSettingsFault (fault : SettingsFault) : Trouble :=
  match fault with
  | .unreadable _ cause => ⟨fault.message, [cause.message]⟩
  | _ => .plain fault.message

/-! ### Runs -/

/-- The files, and what has been written to the standard output. -/
structure Progress where
  files : FileTree
  output : String

/-- A run that can fail; what was done before stays done. -/
abbrev Job : Type → Type := ExceptT Trouble (StateM Progress)

def print (text : String) : Job Unit := modify fun p => { p with output := p.output ++ text }

/-- Makes sure that the log can be written. Nothing is logged. -/
def openLog (path : String) : Job Unit := do
  match Path.parent? path with
  | none => pure ()
  | some parent =>
    unless parent.isEmpty do
      match (← get).files.makePath parent with
      | .ok files => modify fun p => { p with files }
      | .error fault => throw (ofFault ("Failed to create log dir " ++ parent) fault)
  let files := (← get).files
  let before := match files.read path with
    | .ok bytes => bytes
    | .error _ => []
  match files.write path before with
  | .ok files => modify fun p => { p with files }
  | .error fault => throw (ofFault ("Failed to open log file " ++ path) fault)

/-- The settings, with the variables of the environment put in. -/
def readSettings (s : Surroundings) (given : Option String) : Job Settings := do
  let attempt := "Failed to load config"
  match Settings.load (← get).files s.userFile given with
  | .error fault => throw ((ofSettingsFault fault).within attempt)
  | .ok settings =>
    match settings.applyEnvironment s.lookup with
    | (settings, none) => return settings
    | (_, some fault) => throw ((ofSettingsFault fault).within attempt)

/-- The server: what follows the separator, or else the option, or else the settings. -/
def chooseServer (settings : Settings) (option : Option String) (trailing : List String) :
    Except Trouble Endpoint :=
  match trailing, option with
  | program :: args, _ => .ok (.process ⟨program, args, none, []⟩)
  | [], some line =>
    match (Text.words line.toList).map String.ofList with
    | program :: args => .ok (.process ⟨program, args, none, []⟩)
    | [] => .error (.plain "--server-command is empty")
  | [], none =>
    match settings.server.map ServerConfig.endpoint with
    | some (.ok endpoint) => .ok endpoint
    | some (.error fault) => .error (.plain ("invalid [server] config: " ++ fault.message))
    | none =>
      .error (.plain "no server given: pass `-- <command>`, --server-command or set [server]")

/-- The name of a program that can be started, without the directory that programs are in. -/
def programOf (name : String) : Option String :=
  let stem := if Path.isAbsolute name && ["bin", "usr/bin"].any (fun d =>
      Path.parent? name == some ("/" ++ d)) then (Path.steps name).getLast?.getD name else name
  if Shell.isProgram stem then some stem else none

def workingDirectory (files : FileTree) (cwd : Option String) : Except FileFault String := do
  let path := cwd.getD "."
  let resolved ← files.resolve path
  match files.locate path with
  | .ok l => if files.isDirectory l then return resolved else throw .notADirectory
  | .error fault => throw fault

def launch (s : Surroundings) (files : FileTree) (c : ServerCommand) :
    Except Failure (Process ExitStatus) :=
  match programOf c.program with
  | none => .error (programMissing c.program)
  | some name =>
    match workingDirectory files c.cwd with
    | .error fault => .error (.processSpawn c.program fault.message)
    | .ok directory =>
      let environment := (c.env ++ s.environment).map fun (k, v) => (Octets.ofString k, Octets.ofString v)
      .ok (Shell.start directory environment name.toList (c.args.map Octets.ofString))

/-- The failure to connect to a socket that nobody listens on. -/
def unreachable (files : FileTree) (endpoint : Endpoint) : Failure :=
  let fault : DialFault :=
    match endpoint with
    | .unix path => dialSocket files path
    | _ => .refused
  match Backoff.standard.dial fun _ => (.error fault : Except DialFault Empty) with
  | some d =>
    match d.outcome with
    | .error (attempts, fault) => Backoff.exhausted endpoint attempts fault.message
    | .ok stream => nomatch stream
  | none => .transportClosed endpoint.render

/-- Starts the server and runs a routine with a client of it. -/
def attend {ρ : Type} (s : Surroundings) (endpoint : Endpoint) (config : ClientConfig)
    (r : Routine Mock.Handler ρ) : Job ρ := do
  let files := (← get).files
  let process : Except Failure (Process ExitStatus) :=
    match endpoint with
    | .process c => launch s files c
    | other => .error (unreachable files other)
  match process with
  | .error failure => throw ⟨"Failed to start " ++ endpoint.render, [failure.message]⟩
  | .ok process =>
    let (result, files) := Spawned.attendTo config files process r
    modify fun p => { p with files }
    match result with
    | some a => return a
    | none => throw (.plain "the server never answers")

/-- A fixture that is not found as it is named is looked for in the directory of fixtures. -/
def fixturePath (files : FileTree) (settings : Settings) (path : String) : String :=
  if (files.resolve path).toOption.isSome || Path.isAbsolute path then path
  else
    match settings.harness.fixturesDir with
    | some directory => Path.join directory path
    | none => path

def replayRoutine (fixture : Fixture) (settings : Settings) : Routine Mock.Handler Report := do
  let report ← fixture.replay (.ofMillis settings.harness.defaultWait)
  let _ ← Client.shutdown settings.client.config.shutdownTimeout
  return report

/-- Replays fixtures, each with a server of its own; tells whether all passed. -/
def replayAll (s : Surroundings) (settings : Settings) (endpoint : Endpoint) (workspace : Option String) :
    List String → Job Bool
  | [] => return true
  | path :: rest => do
    let files := (← get).files
    match Fixture.load files (fixturePath files settings path) workspace with
    | .error failure => throw (.plain failure.message)
    | .ok fixture =>
      let report ← attend s endpoint settings.client.config (replayRoutine fixture settings)
      print report.render
      let later ← replayAll s settings endpoint workspace rest
      return report.passed && later

/-- Makes the handshake and stops the server: the answer, and how stopping went. -/
def inspectRoutine (params : Json) (timeout : Span) :
    Routine Mock.Handler (Except Failure (Json × Except Failure Unit)) := do
  match ← Client.handshake params with
  | .error failure => return .error failure
  | .ok answer => return .ok (answer, ← Client.shutdown timeout)

/-- The URI of the directory that is given as the root. -/
def rootUri (files : FileTree) (root : String) : Except Trouble String :=
  match files.resolve root with
  | .error fault => .error (ofFault ("Failed to resolve " ++ root) fault)
  | .ok path =>
    match FileUri.ofPath? path with
    | some uri => .ok uri
    | none => .error (.plain ("cannot convert path to file URI: " ++ path))

def inspect (s : Surroundings) (settings : Settings) (endpoint : Endpoint) (root : Option String) :
    Job Unit := do
  let uri ← match root with
    | some root =>
      match rootUri (← get).files root with
      | .ok uri => pure (some uri)
      | .error trouble => throw trouble
    | none => pure none
  let config := settings.client.config
  match ← attend s endpoint config (inspectRoutine (Payload.handshake uri) config.shutdownTimeout) with
  | .error failure => throw ⟨"initialize failed", [failure.message]⟩
  | .ok (answer, stopped) =>
    print (answer.indented ++ "\n")
    match stopped with
    | .ok _ => return
    | .error failure => throw ⟨"shutdown failed", [failure.message]⟩

/-- Carries out an invocation; tells whether all went well. -/
def carryOut (s : Surroundings) (i : Invocation) : Job Bool := do
  match i.logFile with
  | some path => openLog path
  | none => pure ()
  let settings ← readSettings s i.config
  match i.request with
  | .replay fixtures workspace server =>
    let endpoint ← liftExcept (chooseServer settings i.serverCommand server)
    replayAll s settings endpoint workspace fixtures
  | .inspect root server =>
    let endpoint ← liftExcept (chooseServer settings i.serverCommand server)
    inspect s settings endpoint root
    return true
where
  liftExcept {α : Type} (r : Except Trouble α) : Job α :=
    match r with
    | .ok a => pure a
    | .error trouble => throw trouble

def run (s : Surroundings) (args : List String) : Outcome :=
  match Invocation.ofArguments args with
  | .error .misuse => ⟨2, "", "Usage: " ++ programName ++ " [OPTIONS] <COMMAND>\n", s.files⟩
  | .error (.help topic) => ⟨0, topic.text, "", s.files⟩
  | .error .version => ⟨0, versionText, "", s.files⟩
  | .ok i =>
    match (carryOut s i).run.run ⟨s.files, ""⟩ with
    | (.ok passed, p) => ⟨if passed then 0 else 1, p.output, "", p.files⟩
    | (.error trouble, p) => ⟨1, p.output, trouble.render, p.files⟩

end ServerProbe.CommandLine
