import ServerProbe.Json.Shape
import ServerProbe.Framing.Header
/-!
Where a server is: a program to start, or a socket somebody listens on. A configuration has to name
exactly one of them.
-/

namespace ServerProbe

open Json (Shaped)

structure ServerConfig where
  command : Option String
  args : List String
  cwd : Option String
  /-- Extra environment of the program, in the order of names. -/
  env : List (String × String)
  tcp : Option String
  unix : Option String
deriving DecidableEq, Repr

def ServerConfig.empty : ServerConfig := ⟨none, [], none, [], none, none⟩

structure ServerCommand where
  program : String
  args : List String
  cwd : Option String
  env : List (String × String)
deriving DecidableEq, Repr

inductive Endpoint where
  | process (command : ServerCommand)
  | tcp (host : String) (port : Nat)
  | unix (path : String)
deriving DecidableEq, Repr

def Endpoint.render : Endpoint → String
  | process command => " ".intercalate (command.program :: command.args)
  | tcp host port => "tcp://" ++ host ++ ":" ++ toString port
  | unix path => "unix://" ++ path

inductive EndpointFault where
  | portMissing (address : String)
  | portInvalid (address : String)
  | unset
  | ambiguous
deriving DecidableEq, Repr

def EndpointFault.message : EndpointFault → String
  | portMissing address => "tcp address " ++ Text.quoted address ++ " is not host:port"
  | portInvalid address => "invalid port in tcp address " ++ Text.quoted address
  | unset => "no server configured: set command, tcp or unix"
  | ambiguous => "set only one of command, tcp or unix"

/-- A port is a number below 65536, with or without a plus sign. -/
def portValue? (cs : List Char) : Option Nat :=
  (Framing.lengthValue? cs).bind fun n => if n < 65536 then some n else none

/-- The host and port of an address; the port follows the last colon, and the host may stand in
brackets. -/
def tcpEndpoint (address : String) : Except EndpointFault Endpoint :=
  let isBracket (c : Char) : Bool := c == '[' || c == ']'
  match Text.splitAt? ':' address.toList.reverse with
  | none => .error (.portMissing address)
  | some (port, host) =>
    match portValue? port.reverse with
    | none => .error (.portInvalid address)
    | some port => .ok (.tcp (String.ofList ((host.dropWhile isBracket).reverse.dropWhile isBracket)) port)

namespace ServerConfig

def endpoint (c : ServerConfig) : Except EndpointFault Endpoint :=
  match c.command, c.tcp, c.unix with
  | some program, none, none => .ok (.process ⟨program, c.args, c.cwd, c.env⟩)
  | none, some address, none => tcpEndpoint address
  | none, none, some path => .ok (.unix path)
  | none, none, none => .error .unset
  | _, _, _ => .error .ambiguous

def shape : RecordShape :=
  ⟨"struct ServerConfig", [("command", false), ("args", true), ("cwd", false), ("env", true),
    ("tcp", false), ("unix", false)], true⟩

def put (c : ServerConfig) (name : String) (v : Json) : Shaped ServerConfig :=
  match name with
  | "command" => (v.toOption Json.toText).map fun command => { c with command }
  | "args" => (v.toItems Json.toText).map fun args => { c with args }
  | "cwd" => (v.toOption Json.toPath).map fun cwd => { c with cwd }
  | "env" => (v.toMembers Json.toText).map fun env => { c with env }
  | "tcp" => (v.toOption Json.toText).map fun tcp => { c with tcp }
  | _ => (v.toOption Json.toPath).map fun unix => { c with unix }

def ofJson (v : Json) : Shaped ServerConfig := shape.visit put empty v

end ServerConfig
end ServerProbe
