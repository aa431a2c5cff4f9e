import ServerProbe.Shell.Formatted
import ServerProbe.Shell.Reader
import ServerProbe.Shell.State
/-!
Running shell scripts. A running script is a process: it reads its input as far as it needs and writes
as it goes. The length of a run is bounded.
-/

namespace ServerProbe.Shell

/-! ### Commands of the shell itself -/

/-- The input without blanks at its ends, unless fields are not separated at all. -/
def trimmed (s : State) (text : List Char) : List Char :=
  if find? "IFS".toList s.bindings == some [] then text
  else ((text.dropWhile isSeparator).reverse.dropWhile isSeparator).reverse

/-- Gives each name a field of a line, and the last one all that is left. -/
def distribute : List (List Char) → List Char → State → State
  | [], _, s => s
  | [name], text, s => s.assign name (trimmed s text)
  | name :: rest, text, s =>
    let text := trimmed s text
    let field := text.takeWhile fun c => !isSeparator c
    distribute rest (text.drop field.length) (s.assign name field)

def readCommand (args : List (List Char)) : Run Nat := do
  let names := args.filter fun a => a.head? != some '-'
  let line ← takeLine
  let complete := line.getLast? == some '\n'
  modify (distribute names (if complete then line.dropLast else line))
  return if complete then 0 else 1

/-- The value of an argument of the form `key=value`. -/
def setting? (key : String) (args : List (List Char)) : Option (List Char) :=
  args.findSome? fun a =>
    let start := (key ++ "=").toList
    if start.isPrefixOf a then some (a.drop start.length) else none

def copyCommand (args : List (List Char)) : Run Nat := do
  let number (key : String) (default : Nat) : Nat :=
    ((setting? key args).map fun v => (numberOf v).toNat).getD default
  let text ← match setting? "count" args with
    | some _ => takeBytes (number "bs" 512 * number "count" 0)
    | none => takeAll
  say text
  return 0

/-- Copies the input as it comes, up to its end. -/
def relay : (pieces : Nat) → Run Unit
  | 0 => return
  | pieces + 1 => do
    let text ← takeSome
    unless text.isEmpty do
      say text
      relay pieces

/-- More pieces than any input of a session comes in. -/
def greatestRelay : Nat := 10000000

def concatenate : List (List Char) → Run Nat
  | [] => return 0
  | name :: rest => do
    let s ← get
    let status ← if name == ['-'] then
        relay greatestRelay
        pure 0
      else
        match ← system (.readFile (pathOf s.directory name)) with
        | .ok text =>
          say text
          pure 0
        | .error _ => pure 1
    let later ← concatenate rest
    return max status later

def sleepCommand (args : List (List Char)) : Run Nat := do
  let text := args.headD []
  let whole := (numberOf (text.takeWhile Char.isDigit)).toNat
  let decimals := (text.dropWhile Char.isDigit).drop 1 |>.takeWhile Char.isDigit
  let fraction := (numberOf (decimals ++ List.replicate (9 - decimals.length) '0')).toNat
  let start ← system .now
  system (.moment (start + whole * 1000000000 + fraction))
  return 0

def signal? (name : List Char) : Option Nat :=
  match String.ofList name with
  | "HUP" => some 1
  | "INT" => some 2
  | "QUIT" => some 3
  | "ABRT" => some 6
  | "KILL" => some 9
  | "SEGV" => some 11
  | "TERM" => some 15
  | _ => if name.all Char.isDigit && !name.isEmpty then some (numberOf name).toNat else none

/-- Sends the script a signal, which ends it. -/
def killCommand (args : List (List Char)) : Run Nat := do
  let name := match args with
    | ['-', 's'] :: name :: _ => name
    | ('-' :: name) :: _ => name
    | _ => "TERM".toList
  match signal? name with
  | some n => throw (.killed n)
  | none => return 1

def testOperands (s : State) : List (List Char) → Run Bool
  | [] => return false
  | [a] => return !a.isEmpty
  | [op, a] => do
    let path := pathOf s.directory a
    match String.ofList op with
    | "-z" => return a.isEmpty
    | "-n" => return !a.isEmpty
    | "-f" => return (← system (.look path)) == some true
    | "-d" => return (← system (.look path)) == some false
    | "-e" => return (← system (.look path)).isSome
    | _ => return false
  | [a, op, b] =>
    let x := numberOf a
    let y := numberOf b
    match String.ofList op with
    | "=" | "==" => return a == b
    | "!=" => return a != b
    | "-eq" => return x == y
    | "-ne" => return x != y
    | "-lt" => return x < y
    | "-le" => return x ≤ y
    | "-gt" => return y < x
    | "-ge" => return y ≤ x
    | _ => return false
  | _ => return false

def testCommand (args : List (List Char)) : Run Nat := do
  let s ← get
  let holds ← match args with
    | ['!'] :: rest => return if ← testOperands s rest then 1 else 0
    | _ => testOperands s args
  return if holds then 0 else 1

def exportCommand (args : List (List Char)) : Run Nat := do
  modify fun s => args.foldl (fun s a =>
    let name := a.takeWhile (· != '=')
    let value := if name.length < a.length then a.drop (name.length + 1)
      else (find? name s.bindings).getD []
    s.exportAs name value) s
  return 0

def directoryCommand (args : List (List Char)) : Run Nat := do
  let s ← get
  let path := pathOf s.directory (args.headD [])
  if (← system (.look path)) == some false then
    set { s with directory := path }
    return 0
  return 2

/-- Runs a command that needs no other script to be run. -/
def plainCommand (name : String) (args : List (List Char)) : Option (Run Nat) :=
  let number (default : Nat) : Nat := (args.head?.map fun a => (numberOf a).toNat).getD default
  match name with
  | ":" | "true" => some (return 0)
  | "false" => some (return 1)
  | "exit" => some do throw (.exit (number (← get).status))
  | "return" => some do throw (.leave (number (← get).status))
  | "break" => some (throw (.stop (number 1)))
  | "continue" => some (throw (.next (number 1)))
  | "echo" => some do
    say (echoed args)
    return 0
  | "printf" => some do
    say (formatted (args.headD []) args.tail)
    return 0
  | "read" => some (readCommand args)
  | "dd" => some (copyCommand args)
  | "cat" => some (if args.isEmpty then concatenate [['-']] else concatenate args)
  | "sleep" => some (sleepCommand args)
  | "kill" => some (killCommand args)
  | "test" => some (testCommand args)
  | "[" => some (testCommand args.dropLast)
  | "export" => some (exportCommand args)
  | "cd" => some (directoryCommand args)
  | "shift" => some do
    modify fun s => { s with arguments := s.arguments.drop (number 1) }
    return 0
  | "unset" => some do
    modify fun s => { s with bindings := s.bindings.filter fun v => !args.contains v.1 }
    return 0
  | "set" | "trap" | "umask" | "wait" => some (return 0)
  | _ => none

/-! ### Scopes -/

/-- Runs something in a copy of the shell. What it read and what it captured stays. -/
def inCopy (r : Run Unit) : Run Unit := do
  let before ← get
  let status ← try
      r
      pure (← get).status
    catch
      | .exit n | .leave n => pure n
      | .stop _ | .next _ => pure 0
      | jump => throw jump
  modify fun s => { before with input := s.input, captured := s.captured, status }

/-- Runs something with another output or input, which are then set back. -/
def withChannels (r : Run Unit) : Run Unit := do
  let before ← get
  let restore (s : State) : State :=
    { s with input := before.input, output := before.output, errors := before.errors }
  try r catch jump =>
    modify restore
    throw jump
  modify restore

/-- What a loop does when its body is left by a jump: whether it goes on. -/
def afterJump : Jump → Run Bool
  | .stop n => if 1 < n then throw (.stop (n - 1)) else return false
  | .next n => if 1 < n then throw (.next (n - 1)) else return true
  | jump => throw jump

/-! ### Words and commands -/

mutual

/-- What the parts of a word expand to. -/
def expand : Nat → List Part → Run (List Piece)
  | 0, _ => throw .spent
  | _, [] => return []
  | n + 1, part :: rest => do
    let pieces ← expandPart n part
    return pieces ++ (← expand n rest)

def expandPart : Nat → Part → Run (List Piece)
  | 0, _ => throw .spent
  | _, .text chars quoted =>
    return if quoted then .kept :: chars.map .quoted else chars.map .plain
  | n + 1, .written script quoted => return piecesOf quoted (withoutLastLines (← captureList n script))
  | n + 1, .parameter name use quoted => do
    let s ← get
    let value := s.parameter? name
    let text := value.getD []
    match use with
    | .value =>
      if name == ['@'] && quoted then
        return [Piece.gap].intercalate (s.arguments.map (piecesOf true))
      return piecesOf quoted text
    | .length => return piecesOf quoted (decimalText text.length)
    | .trimmed trim word =>
      let pattern := patternOf (← expand n word)
      return piecesOf quoted (match trim with
        | .shortestStart => pattern.dropStart false text
        | .longestStart => pattern.dropStart true text
        | .shortestEnd => pattern.dropEnd false text
        | .longestEnd => pattern.dropEnd true text)
    | .otherwise orEmpty word =>
      if value.isNone || (orEmpty && text.isEmpty) then return keepTogether quoted (← expand n word)
      return piecesOf quoted text
    | .provided orEmpty word =>
      if value.isNone || (orEmpty && text.isEmpty) then return piecesOf quoted []
      return keepTogether quoted (← expand n word)

def captureList : Nat → List Command → Run (List Char)
  | 0, _ => throw .spent
  | n + 1, script => do
    let before ← get
    set { before with output := .capture, captured := [] }
    inCopy (runList n script)
    let text := (← get).captured
    modify fun s => { s with output := before.output, captured := before.captured }
    return text

def expandWords : Nat → List (List Part) → Run (List (List Char))
  | 0, _ => throw .spent
  | _, [] => return []
  | n + 1, word :: rest => do
    let fields := fieldsFrom none (← expand n word)
    return fields ++ (← expandWords n rest)

def expandPath : Nat → List Part → Run String
  | 0, _ => throw .spent
  | n + 1, word => do return pathOf (← get).directory (textOf (← expand n word))

/-- Redirects channels, one redirection after the other; tells whether all could be done. -/
def redirect : Nat → List Redirect → Run Bool
  | 0, _ => throw .spent
  | _, [] => return true
  | n + 1, r :: rest => do
    let send (channel : Channel) (sink : Sink) : Run Unit :=
      modify fun s => match channel with
        | .output => { s with output := sink }
        | .errors => { s with errors := sink }
        | .input => s
    let done ← match r with
      | .write channel word =>
        let path ← expandPath n word
        send channel (.file path)
        create path
      | .append channel word =>
        let path ← expandPath n word
        send channel (.file path)
        touch path
      | .read word =>
        let path ← expandPath n word
        if path == nullDevice then
          modify fun s => { s with input := some [] }
          pure true
        else
          match ← system (.readFile path) with
          | .ok text =>
            modify fun s => { s with input := some text }
            pure true
          | .error _ => pure false
      | .same channel target =>
        let s ← get
        send channel (if target == .output then s.output else s.errors)
        pure true
    if done then redirect n rest else return false

def assignAll : Nat → List (List Char × List Part) → Run Unit
  | 0, _ => throw .spent
  | _, [] => return
  | n + 1, (name, word) :: rest => do
    let text := textOf (← expand n word)
    modify (State.assign name text)
    assignAll n rest

/-- Runs a script in a shell of its own. -/
def runNested : Nat → (name : List Char) → (args : List (List Char)) → (text : List Char) → Run Unit
  | 0, _, _, _ => throw .spent
  | n + 1, name, args, text =>
    match Reader.script? text with
    | none => modify fun s => { s with status := 2 }
    | some script => inCopy do
      modify fun s =>
        { s with bindings := s.environment, functions := [], name, arguments := args, status := 0 }
      runList n script

def invoke : Nat → List Char → List (List Char) → Run Unit
  | 0, _, _ => throw .spent
  | n + 1, name, args => do
    let s ← get
    match find? name s.functions with
    | some body =>
      set { s with arguments := args }
      let status ← try
          runCommand n body
          pure (← get).status
        catch
          | .leave status => pure status
          | jump => throw jump
      modify fun t => { t with arguments := s.arguments, status }
    | none =>
      match plainCommand (String.ofList name) args with
      | some r =>
        let status ← r
        modify fun s => { s with status }
      | none =>
        match String.ofList name, args with
        | "sh", ['-', 'c'] :: text :: rest => runNested n (rest.headD name) rest.tail text
        | "sh", file :: rest =>
          match ← system (.readFile (pathOf s.directory file)) with
          | .ok text => runNested n file rest text
          | .error _ => modify fun s => { s with status := 2 }
        | "sh", [] => runNested n name [] (← takeAll)
        | "exec", name :: rest =>
          invoke n name rest
          throw (.exit (← get).status)
        | "eval", words =>
          match Reader.script? ([' '].intercalate words) with
          | some script => runList n script
          | none => modify fun s => { s with status := 2 }
        | _, _ => modify fun s => { s with status := 127 }

def repeatLoop (untilSuccess : Bool) : Nat → (condition body : List Command) → Run Unit
  | 0, _, _ => throw .spent
  | n + 1, condition, body => do
    runList n condition
    if ((← get).status == 0) != untilSuccess then
      let goesOn ← try
          runList n body
          pure true
        catch jump => afterJump jump
      if goesOn then repeatLoop untilSuccess n condition body
      else modify fun s => { s with status := 0 }
    else modify fun s => { s with status := 0 }

/-- Runs the body of a loop for each field. -/
def runEach : Nat → List Char → List (List Char) → List Command → Run Unit
  | 0, _, _, _ => throw .spent
  | _, _, [], _ => return
  | n + 1, name, field :: rest, body => do
    modify (State.assign name field)
    let goesOn ← try
        runList n body
        pure true
      catch jump => afterJump jump
    if goesOn then runEach n name rest body

/-- Runs the first arm of which a pattern is met. -/
def runArms : Nat → List Char → List (List (List Part) × List Command) → Run Unit
  | 0, _, _ => throw .spent
  | _, _, [] => modify fun s => { s with status := 0 }
  | n + 1, subject, (patterns, body) :: rest => do
    if ← meets n subject patterns then
      modify fun s => { s with status := 0 }
      runList n body
    else runArms n subject rest

/-- Whether a text meets one of some patterns. -/
def meets : Nat → List Char → List (List Part) → Run Bool
  | 0, _, _ => throw .spent
  | _, _, [] => return false
  | n + 1, subject, word :: rest => do
    if (patternOf (← expand n word)).isMet subject then return true
    meets n subject rest

def runRedirected : Nat → List Redirect → Run Unit → Run Unit
  | 0, _, _ => throw .spent
  | n + 1, redirects, r =>
    if redirects.isEmpty then r
    else withChannels do
      if ← redirect n redirects then r else modify fun s => { s with status := 2 }

def runCommand : Nat → Command → Run Unit
  | 0, _ => throw .spent
  | n + 1, .simple assignments words redirects => do
    modify fun s => { s with status := if words.isEmpty then 0 else s.status }
    match ← expandWords n words with
    | [] =>
      assignAll n assignments
      runRedirected n redirects (pure ())
    | name :: args =>
      let before ← get
      assignAll n assignments
      modify fun s => { s with
        environment := (assignments.map Prod.fst).foldl
          (fun e v => put v ((find? v s.bindings).getD []) e) s.environment }
      runRedirected n redirects (invoke n name args)
      unless assignments.isEmpty do
        modify fun s => { s with
          environment := before.environment
          bindings := (assignments.map Prod.fst).foldl (fun vs v =>
            match find? v before.bindings with
            | some value => put v value vs
            | none => vs.filter fun e => e.1 != v) s.bindings }
  | n + 1, .group body => runList n body
  | n + 1, .subshell body => inCopy (runList n body)
  | n + 1, .loop untilSuccess condition body => repeatLoop untilSuccess n condition body
  | n + 1, .branch condition yes no => do
    runList n condition
    if (← get).status == 0 then runList n yes
    else
      modify fun s => { s with status := 0 }
      runList n no
  | n + 1, .each name words body => do
    let fields ← expandWords n words
    modify fun s => { s with status := 0 }
    runEach n name fields body
  | n + 1, .choose subject choices => do
    let text := textOf (← expand n subject)
    runArms n text choices
  | _, .define name body =>
    modify fun s => { s with functions := put name body s.functions, status := 0 }
  | n + 1, .both first second => do
    runCommand n first
    if (← get).status == 0 then runCommand n second
  | n + 1, .either first second => do
    runCommand n first
    if (← get).status != 0 then runCommand n second
  | n + 1, .negate c => do
    runCommand n c
    modify fun s => { s with status := if s.status == 0 then 1 else 0 }
  | n + 1, .pipe first second => do
    let text ← captureList n [first]
    withChannels do
      modify fun s => { s with input := some text }
      inCopy (runCommand n second)
  | n + 1, .redirected c redirects => runRedirected n redirects (runCommand n c)

def runList : Nat → List Command → Run Unit
  | 0, _ => throw .spent
  | _, [] => return
  | n + 1, c :: rest => do
    runCommand n c
    runList n rest

end

/-- More steps than any script of a session takes. -/
def greatestRun : Nat := 10000000

/-- The state in which a command is started. -/
def State.initial (directory : String) (environment : List (List Char × List Char)) : State :=
  { bindings := environment, environment, functions := [], name := "sh".toList, arguments := []
    status := 0, directory, input := none, output := .output, errors := .nowhere, captured := [] }

def exited (status : Nat) : ExitStatus := ⟨some (status % 256 : Nat), none⟩

/-- Runs one command with its arguments as a process. -/
def start (directory : String) (environment : List (List Char × List Char)) (name : List Char)
    (args : List (List Char)) : Process ExitStatus := do
  match ← (invoke greatestRun name args).run.run (.initial directory environment) with
  | (.ok _, s) => return exited s.status
  | (.error (.exit n), _) | (.error (.leave n), _) => return exited n
  | (.error (.killed signal), _) => return ⟨none, some signal⟩
  | (.error _, s) => return exited s.status

/-- The commands that can be started as processes. -/
def isProgram (name : String) : Bool :=
  ["sh", "cat", "dd", "echo", "false", "kill", "printf", "sleep", "test", "true", "["].contains name

end ServerProbe.Shell
