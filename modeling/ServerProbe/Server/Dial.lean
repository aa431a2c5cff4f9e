import ServerProbe.File.Tree
import ServerProbe.Server.Backoff
/-!
Reaching a server that is not there: a socket nobody listens on, or a program that cannot be found.
-/

namespace ServerProbe

inductive DialFault where
  | file (fault : FileFault)
  | refused
  | nameTooLong
deriving DecidableEq, Repr

def DialFault.message : DialFault → String
  | file fault => fault.message
  | refused => "Connection refused (os error 111)"
  | nameTooLong => "path must be shorter than SUN_LEN"

/-- What connecting to a socket in a tree of files comes to: the tree holds no sockets, so a name in
it is refused. -/
def dialSocket (files : FileTree) (path : String) : DialFault :=
  if 108 ≤ (Utf8.encode path).length then .nameTooLong
  else
    match files.resolve path with
    | .ok _ => .refused
    | .error fault => .file fault

/-- The failure to start a program that is not there. -/
def programMissing (program : String) : Failure :=
  .processSpawn program "not found in PATH: cannot find binary path"

/-- What connecting to a socket ends in, and how long it takes. -/
def Backoff.dialSocket (b : Backoff) (files : FileTree) (path : String) : Option (Failure × Span) :=
  (b.dial fun _ => (.error (ServerProbe.dialSocket files path) : Except DialFault Empty)).bind fun d =>
    match d.outcome with
    | .error (attempts, fault) =>
      some (Backoff.exhausted (.unix path) attempts fault.message, d.waits.foldl Span.add .zero)
    | .ok stream => nomatch stream

end ServerProbe
