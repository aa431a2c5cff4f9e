import ServerProbe.File.Tree
import ServerProbe.Server.Backoff
import ServerProbe.Settings.Toml
/-!
Settings of the program: how long to wait for what, which server to start, and where fixtures are.

They come from a file and are then overridden by variables of the environment.
-/

namespace ServerProbe

open Json (Shaped)

/-- How a client waits. A missing timeout means waiting for ever. -/
structure ClientConfig where
  requestTimeout : Option Span
  handshakeTimeout : Option Span
  shutdownTimeout : Span
  /-- How long the id of an abandoned call is remembered. -/
  quarantine : Span
  /-- Whether a notification that nobody handles is an anomaly. -/
  strict : Bool
deriving DecidableEq, Repr

def ClientConfig.standard : ClientConfig :=
  ⟨some (.ofSeconds 5), some (.ofSeconds 30), .ofSeconds 5, .ofSeconds 60, false⟩

structure ClientSection where
  requestTimeout : Nat
  handshakeTimeout : Nat
  shutdownTimeout : Nat
  quarantine : Nat
  strict : Bool
deriving DecidableEq, Repr

namespace ClientSection

def standard : ClientSection := ⟨5000, 30000, 5000, 60000, false⟩

def timeout (ms : Nat) : Option Span := if ms == 0 then none else some (.ofMillis ms)

def config (s : ClientSection) : ClientConfig :=
  ⟨timeout s.requestTimeout, timeout s.handshakeTimeout, .ofMillis s.shutdownTimeout,
    .ofMillis s.quarantine, s.strict⟩

def shape : RecordShape :=
  ⟨"struct ClientSection", [("request_timeout_ms", true), ("initialize_timeout_ms", true),
    ("shutdown_timeout_ms", true), ("quarantine_ms", true), ("strict_notifications", true)], true⟩

def put (s : ClientSection) (name : String) (v : Json) : Shaped ClientSection :=
  match name with
  | "request_timeout_ms" => v.toU64.map fun n => { s with requestTimeout := n }
  | "initialize_timeout_ms" => v.toU64.map fun n => { s with handshakeTimeout := n }
  | "shutdown_timeout_ms" => v.toU64.map fun n => { s with shutdownTimeout := n }
  | "quarantine_ms" => v.toU64.map fun n => { s with quarantine := n }
  | _ => v.toFlag.map fun b => { s with strict := b }

end ClientSection

structure HarnessSection where
  fixturesDir : Option String
  defaultWait : Nat
deriving DecidableEq, Repr

namespace HarnessSection

def standard : HarnessSection := ⟨none, 5000⟩

def shape : RecordShape :=
  ⟨"struct HarnessSection", [("fixtures_dir", true), ("default_wait_ms", true)], true⟩

def put (s : HarnessSection) (name : String) (v : Json) : Shaped HarnessSection :=
  match name with
  | "fixtures_dir" => v.toPath.map fun dir => { s with fixturesDir := some dir }
  | _ => v.toU64.map fun n => { s with defaultWait := n }

end HarnessSection

structure Settings where
  client : ClientSection
  server : Option ServerConfig
  harness : HarnessSection
deriving DecidableEq, Repr

inductive SettingsFault where
  | unreadable (path : String) (fault : FileFault)
  | malformed (path : String)
  | variableInvalid (name value reason : String)
deriving DecidableEq, Repr

namespace SettingsFault

def message : SettingsFault → String
  | unreadable path fault => "failed to read " ++ path ++ ": " ++ fault.message
  | malformed path => "failed to parse " ++ path
  | variableInvalid name value reason =>
    "invalid value for " ++ name ++ ": " ++ Text.quoted value ++ " (" ++ reason ++ ")"

def path? : SettingsFault → Option String
  | unreadable path _ | malformed path => some path
  | variableInvalid _ _ _ => none

end SettingsFault

namespace Settings

def standard : Settings := ⟨.standard, none, .standard⟩

def shape : RecordShape :=
  ⟨"struct Settings", [("client", true), ("server", false), ("harness", true)], true⟩

/-- A record of a settings file. Items beyond the fields of its array form are passed over. -/
def readRecord {σ : Type} (shape : RecordShape) (put : σ → String → Json → Shaped σ) (start : σ) :
    Json → Shaped σ
  | .arr vs => shape.visit put start (.arr (vs.take shape.fields.length))
  | v => shape.visit put start v

def put (s : Settings) (name : String) (v : Json) : Shaped Settings :=
  match name with
  | "client" => (readRecord ClientSection.shape ClientSection.put .standard v).map fun client => { s with client }
  | "server" => (readRecord ServerConfig.shape ServerConfig.put .empty v).map fun c => { s with server := some c }
  | _ => (readRecord HarnessSection.shape HarnessSection.put .standard v).map fun harness => { s with harness }

/-- The settings in the text of a file. -/
def parse? (text : String) : Option Settings :=
  (Toml.parse? text).bind fun v => (readRecord shape put standard v).toOption

def ofFile (files : FileTree) (path : String) : Except SettingsFault Settings :=
  match files.readText path with
  | .error fault => .error (.unreadable path fault)
  | .ok text =>
    match parse? text with
    | some s => .ok s
    | none => .error (.malformed path)

/-! ### Variables -/

/-- Digits as a number of 64 bits, or what is wrong with the first character that does not fit. -/
def readDigits : Nat → List Char → Except String Nat
  | n, [] => .ok n
  | n, c :: cs =>
    if !Framing.isDigit c then .error "invalid digit found in string"
    else
      let n := n * 10 + (c.toNat - 48)
      if n < UInt64.size then readDigits n cs else .error "number too large to fit in target type"

def readMillis (value : String) : Except String Nat :=
  match Text.trim value.toList with
  | [] => .error "cannot parse integer from empty string"
  | ['+'] => .error "invalid digit found in string"
  | '+' :: cs => readDigits 0 cs
  | cs => readDigits 0 cs

def readFlag? (value : String) : Option Bool :=
  match (String.ofList ((Text.trim value.toList).map Char.toLower)) with
  | "1" | "true" | "yes" | "on" => some true
  | "0" | "false" | "no" | "off" => some false
  | _ => none

/-- A variable that overrides settings: its name and what its value does. -/
structure Override where
  name : String
  apply : String → Settings → Except String Settings

def overrideMillis (name : String) (put : Nat → ClientSection → ClientSection) : Override :=
  ⟨name, fun value s => (readMillis value).map fun n => { s with client := put n s.client }⟩

/-- A server command is split at blanks; it replaces what the file says about the server but its
directory and environment. -/
def overrideServer (value : String) (s : Settings) : Except String Settings :=
  match (Text.words value.toList).map String.ofList with
  | [] => .error "empty command"
  | program :: args =>
    let server := s.server.getD .empty
    .ok { s with server := some { server with command := some program, args, tcp := none, unix := none } }

/-- The variables, in the order in which they are applied. -/
def overrides : List Override := [
  overrideMillis "LSPROBE_REQUEST_TIMEOUT_MS" fun n c => { c with requestTimeout := n },
  overrideMillis "LSPROBE_SHUTDOWN_TIMEOUT_MS" fun n c => { c with shutdownTimeout := n },
  overrideMillis "LSPROBE_INITIALIZE_TIMEOUT_MS" fun n c => { c with handshakeTimeout := n },
  ⟨"LSPROBE_STRICT_NOTIFICATIONS", fun value s =>
    match readFlag? value with
    | some b => .ok { s with client := { s.client with strict := b } }
    | none => .error "expected true/false/1/0"⟩,
  ⟨"LSPROBE_SERVER_COMMAND", overrideServer⟩]

/-- Applies variables one after the other up to the first invalid one, which is reported; what was
applied before stays. -/
def applyAll (lookup : String → Option String) : List Override → Settings → Settings × Option SettingsFault
  | [], s => (s, none)
  | o :: rest, s =>
    match lookup o.name with
    | none => applyAll lookup rest s
    | some value =>
      match o.apply value s with
      | .ok s => applyAll lookup rest s
      | .error reason => (s, some (.variableInvalid o.name value reason))

def applyEnvironment (lookup : String → Option String) (s : Settings) : Settings × Option SettingsFault :=
  applyAll lookup overrides s

/-! ### Finding the file -/

def fileName : String := "lsprobe.toml"

inductive Found where
  | nowhere
  | here
  | inUserDirectory
deriving DecidableEq, Repr

/-- The settings file in the current directory, or else the user's. -/
def discover (files : FileTree) (userFile : String) : Found × Option String :=
  if files.isFile fileName then (.here, some fileName)
  else if files.isFile userFile then (.inUserDirectory, some userFile)
  else (.nowhere, none)

/-- The settings in the given file or else in the one that is found. -/
def load (files : FileTree) (userFile : String) (given : Option String) : Except SettingsFault Settings :=
  match given with
  | some path => ofFile files path
  | none =>
    match (discover files userFile).2 with
    | some path => ofFile files path
    | none => .ok standard

end Settings
end ServerProbe
