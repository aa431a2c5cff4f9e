import ServerProbe.Json.Printer
import ServerProbe.Text.Blank
/-!
What a server says about itself when it answers the handshake.
-/

namespace ServerProbe

structure ServerInfo where
  name : String
  version : Option String
deriving DecidableEq, Repr

/-- The advertised capabilities, kept as a document, and the server's name if it gave one. -/
structure Capabilities where
  advertised : Json
  server : Option ServerInfo
deriving Repr

/-- Why the result of a handshake is unusable. -/
inductive HandshakeFault where
  | resultNotAnObject (seen : Json)
  | capabilitiesNotAnObject (seen : Json)
  | capabilitiesMissing
deriving Repr

def HandshakeFault.message : HandshakeFault → String
  | resultNotAnObject seen => "initialize result is not an object: " ++ seen.compact
  | capabilitiesNotAnObject seen => "`capabilities` is not an object: " ++ seen.compact
  | capabilitiesMissing => "initialize result has no `capabilities`"

/-- A server's name and version; without a name there is nothing to tell. -/
def ServerInfo.ofJson? (v : Json) : Option ServerInfo := do
  let name ← (← v.get? "name").asString?
  return ⟨name, (v.get? "version").bind Json.asString?⟩

namespace Capabilities

/-- The capabilities in the result of a handshake, which has to be an object with an object. -/
def ofResult : Json → Except HandshakeFault Capabilities
  | .obj ms =>
    match Json.find? "capabilities" ms with
    | some (.obj caps) => .ok ⟨.obj caps, (Json.find? "serverInfo" ms).bind ServerInfo.ofJson?⟩
    | some v => .error (.capabilitiesNotAnObject v)
    | none => .error .capabilitiesMissing
  | v => .error (.resultNotAnObject v)

/-- The entry at a path of names joined by points. -/
def entry? (caps : Capabilities) (path : String) : Option Json :=
  (Text.parts '.' path.toList).foldlM (fun v key => v.get? (String.ofList key)) caps.advertised

/-- A capability is advertised when it is present and neither false nor null. -/
def supports (caps : Capabilities) (path : String) : Bool :=
  match caps.entry? path with
  | none | some .null | some (.bool false) => false
  | some _ => true

end Capabilities
end ServerProbe
