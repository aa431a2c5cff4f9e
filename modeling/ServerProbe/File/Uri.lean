import ServerProbe.File.Path
import ServerProbe.Json.Reader
import ServerProbe.Text.Utf8
/-!
File URIs. A path is written by escaping what a URI cannot hold; a URI is read with its dot segments
resolved and its escapes undone, and stands for a path only if it names no other host.
-/

namespace ServerProbe.FileUri

/-! ### Writing -/

def hexDigits : List Char := "0123456789ABCDEF".toList

/-- Bytes that a segment of a path cannot hold as they are. -/
def isEscaped (b : UInt8) : Bool :=
  let n := b.toNat
  decide (n < 33) || decide (126 < n)
    || [34, 35, 37, 47, 60, 62, 63, 92, 94, 96, 123, 125].contains n

def escapeByte (b : UInt8) : List Char :=
  if isEscaped b then
    ['%', hexDigits.getD (b.toNat / 16) '0', hexDigits.getD (b.toNat % 16) '0']
  else [Char.ofNat b.toNat]

def escape (s : String) : String := String.ofList ((Utf8.encode s).flatMap escapeByte)

def ofSteps (steps : List String) : String :=
  match steps with
  | [] => "file:///"
  | _ => "file://" ++ String.join (steps.map fun s => "/" ++ escape s)

/-- The URI of an absolute path; other paths have none. -/
def ofPath? (path : String) : Option String :=
  if Path.isAbsolute path then some (ofSteps (Path.steps path)) else none

/-- The URI of a directory without a slash at its end. -/
def ofDirectory? (path : String) : Option String :=
  (ofPath? path).map fun uri => String.ofList (uri.toList.reverse.dropWhile (· == '/')).reverse

/-! ### Reading -/

def isLetter (c : Char) : Bool :=
  (decide ('a' ≤ c) && decide (c ≤ 'z')) || (decide ('A' ≤ c) && decide (c ≤ 'Z'))

def isDigit (c : Char) : Bool := decide ('0' ≤ c) && decide (c ≤ '9')

/-- A URI without the controls and spaces around it, and without tabs and line ends anywhere. -/
def cleaned (uri : String) : List Char :=
  let edge (c : Char) : Bool := decide (c.toNat ≤ 32)
  let inner := ((uri.toList.dropWhile edge).reverse.dropWhile edge).reverse
  inner.filter fun c => !(c == '\t' || c == '\n' || c == '\r')

/-- The scheme in small letters, and what follows its colon. -/
def scheme? (cs : List Char) : Option (String × List Char) :=
  let isName (c : Char) : Bool := isLetter c || isDigit c || c == '+' || c == '-' || c == '.'
  match cs.takeWhile isName, cs.dropWhile isName with
  | c :: name, ':' :: rest =>
    if isLetter c then some (String.ofList ((c :: name).map Char.toLower), rest) else none
  | _, _ => none

/-- The bytes of a text with its escapes undone. -/
def unescape : List Char → Bytes
  | '%' :: a :: b :: rest =>
    match Json.Reader.hexValue? a, Json.Reader.hexValue? b with
    | some x, some y => (x * 16 + y).toUInt8 :: unescape rest
    | _, _ => 37 :: unescape (a :: b :: rest)
  | c :: rest => Utf8.encodeChar c ++ unescape rest
  | [] => []

def isDriveLetter : List Char → Bool
  | [c, mark] => isLetter c && (mark == ':' || mark == '|')
  | _ => false

/-- A segment with its escaped dots undone. -/
def plainDots : List Char → List Char
  | '%' :: '2' :: e :: rest => if e == 'e' || e == 'E' then '.' :: plainDots rest else '%' :: '2' :: e :: rest
  | '.' :: rest => '.' :: plainDots rest
  | cs => cs

/-- Resolves the dot segments; `seen` holds the segments so far, the last one first. In a file URI a
drive letter at the front cannot be left. -/
def resolveDots (isFile : Bool) (seen : List (List Char)) : List (List Char) → List (List Char)
  | [] => seen.reverse
  | s :: rest =>
    let dots := plainDots s
    let atEnd (seen : List (List Char)) := if rest.isEmpty then [] :: seen else seen
    if dots == ['.', '.'] then
      let kept := match seen with
        | [d] => if isFile && isDriveLetter d then [d] else []
        | seen => seen.tail
      resolveDots isFile (atEnd kept) rest
    else if dots == ['.'] then resolveDots isFile (atEnd seen) rest
    else
      let s := if isFile && seen.isEmpty && isDriveLetter s then s.take 1 ++ [':'] else s
      resolveDots isFile (s :: seen) rest

/-- A path up to its query or fragment, with the slash at its front dropped. -/
def segments (isSlash : Char → Bool) (cs : List Char) : List (List Char) :=
  let path := (cs.takeWhile fun c => !(c == '?' || c == '#')).map fun c => if isSlash c then '/' else c
  Text.parts '/' (if path.head? == some '/' then path.drop 1 else path)

/-- The path that segments stand for. A path that ends like a drive letter gets a slash. -/
def pathOf (segments : List (List Char)) : String :=
  let path := Utf8.decodeLenient (segments.flatMap fun s => 47 :: unescape s)
  match path.toList.reverse with
  | mark :: c :: _ :: _ => if isDriveLetter [c, mark] then path ++ "/" else path
  | _ => path

structure Authority where
  hasUser : Bool
  host : List Char
  port : Option (List Char)

namespace Authority

/-- The port begins at the last colon, unless that is inside brackets. -/
def ofText (cs : List Char) : Authority :=
  let back := cs.reverse.takeWhile (· != '@')
  let hasUser := cs.contains '@'
  match back.takeWhile (fun c => c != ':' && c != ']'), back.dropWhile (fun c => c != ':' && c != ']') with
  | port, ':' :: host => ⟨hasUser, host.reverse, some port.reverse⟩
  | _, _ => ⟨hasUser, back.reverse, none⟩

def hasValidPort (a : Authority) : Bool :=
  match a.port with
  | none => true
  | some port =>
    port.all isDigit && decide (port.foldl (fun n c => n * 10 + (c.toNat - 48)) 0 < 65536)

end Authority

/-- Whether a host is the local one, escapes and case aside. -/
def isLocalHost (host : List Char) : Bool :=
  Text.sameLetters (Utf8.decodeLenient (unescape host)).toList "localhost".toList

def isPlainSlash (c : Char) : Bool := c == '/'

def isAnySlash (c : Char) : Bool := c == '/' || c == '\\'

def endsAuthority (isSlash : Char → Bool) (c : Char) : Bool := isSlash c || c == '?' || c == '#'

/-- The path in a file URI, of which `cs` is what follows the scheme. -/
def filePath? (cs : List Char) : Option String :=
  let ofRest (cs : List Char) : String :=
    let segments := (resolveDots true [] (segments isAnySlash cs)).dropWhile List.isEmpty
    pathOf (if segments.isEmpty then [[]] else segments)
  match cs with
  | a :: b :: rest =>
    if isAnySlash a && isAnySlash b then
      let host := rest.takeWhile fun c => !endsAuthority isAnySlash c
      let after := rest.dropWhile fun c => !endsAuthority isAnySlash c
      if isDriveLetter host then some (ofRest rest)
      else if host.isEmpty || isLocalHost host then some (ofRest after)
      else none
    else some (ofRest cs)
  | cs => some (ofRest cs)

/-- The path in a URI of a scheme that always has a host. -/
def hostedPath? (cs : List Char) : Option String :=
  let rest := cs.dropWhile isAnySlash
  let authority := Authority.ofText (rest.takeWhile fun c => !endsAuthority isAnySlash c)
  let after := rest.dropWhile fun c => !endsAuthority isAnySlash c
  if authority.hasValidPort && isLocalHost authority.host then
    some (pathOf (resolveDots false [] (segments isAnySlash after)))
  else none

/-- The path in a URI of any other scheme. -/
def plainPath? (cs : List Char) : Option String :=
  let ofRest (cs : List Char) : Option String :=
    if cs.head? == some '/' then some (pathOf (resolveDots false [] (segments isPlainSlash cs))) else none
  match cs with
  | '/' :: '/' :: rest =>
    let authority := Authority.ofText (rest.takeWhile fun c => !endsAuthority isPlainSlash c)
    let after := rest.dropWhile fun c => !endsAuthority isPlainSlash c
    let bare := !authority.hasUser && authority.port.isNone
    if (authority.host.isEmpty && bare) || (authority.host == "localhost".toList && authority.hasValidPort) then
      ofRest after
    else none
  | cs => ofRest cs

def hostedSchemes : List String := ["http", "https", "ws", "wss", "ftp"]

/-- The path a URI stands for on this machine. -/
def toPath? (uri : String) : Option String :=
  match scheme? (cleaned uri) with
  | none => none
  | some (scheme, rest) =>
    if scheme == "file" then filePath? rest
    else if hostedSchemes.contains scheme then hostedPath? rest
    else plainPath? rest

end ServerProbe.FileUri
