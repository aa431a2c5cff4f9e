/-!
The arguments of the command line.

Arguments are read from left to right, and the first one that cannot be read, or that asks for help,
decides. Some options may stand before or after the name of the command; after it they count more.
-/

namespace ServerProbe.CommandLine

inductive Request where
  | replay (fixtures : List String) (workspace : Option String) (server : List String)
  | inspect (root : Option String) (server : List String)
deriving DecidableEq, Repr

structure Invocation where
  config : Option String
  logFile : Option String
  serverCommand : Option String
  request : Request
deriving DecidableEq, Repr

inductive Topic where
  | program
  | replay
  | inspect
  | help
deriving DecidableEq, Repr

/-- Why nothing is run. -/
inductive Stop where
  | misuse
  | help (topic : Topic)
  | version
deriving DecidableEq, Repr

/-- An option that takes a value. Values that are paths are never empty. -/
structure Flag where
  name : String
  isPath : Bool
deriving DecidableEq, Repr

def commonFlags : List Flag := [⟨"config", true⟩, ⟨"log-file", true⟩, ⟨"server-command", false⟩]

/-- The values of the options that were given. -/
abbrev Given : Type := List (String × String)

def Given.value? (name : String) (given : Given) : Option String :=
  (given.find? fun g => g.1 == name).map Prod.snd

/-- Takes in the value of an option, which may be given only once. -/
def give (flag : Flag) (value : String) (given : Given) : Except Stop Given :=
  if (given.value? flag.name).isSome || (flag.isPath && value.isEmpty) then .error .misuse
  else .ok ((flag.name, value) :: given)

inductive Argument where
  /-- What follows is not read as options. -/
  | separator
  | long (name : String) (value : Option String)
  | short (letters : List Char)
  | plain (text : String)
deriving DecidableEq, Repr

def Argument.ofText (text : String) : Argument :=
  match text.toList with
  | ['-'] => plain text
  | ['-', '-'] => separator
  | '-' :: '-' :: cs =>
    match cs.dropWhile (· != '=') with
    | _ :: value => long (String.ofList (cs.takeWhile (· != '='))) (some (String.ofList value))
    | [] => long (String.ofList cs) none
  | '-' :: cs => short cs
  | _ => plain text

/-- Whether an argument can be the value of the option before it. -/
def isValue (text : String) : Bool :=
  match Argument.ofText text with
  | .plain _ => true
  | _ => false

inductive Ending where
  | finished
  | separator
  | plain (text : String)
deriving DecidableEq, Repr

/-- Reads options up to the first argument that is none. `versioned` tells whether the version can be
asked for. -/
def readOptions (topic : Topic) (versioned : Bool) (flags : List Flag) (given : Given) :
    List String → Except Stop (Given × Ending × List String)
  | [] => .ok (given, .finished, [])
  | text :: rest =>
    match Argument.ofText text with
    | .separator => .ok (given, .separator, rest)
    | .plain text => .ok (given, .plain text, rest)
    | .short letters =>
      if letters.head? == some 'h' then .error (.help topic)
      else if letters.head? == some 'V' && versioned then .error .version
      else .error .misuse
    | .long name value =>
      if name == "help" && value.isNone then .error (.help topic)
      else if name == "version" && versioned && value.isNone then .error .version
      else
        match flags.find? (fun f => f.name == name), value, rest with
        | none, _, _ => .error .misuse
        | some flag, some value, rest => do
          readOptions topic versioned flags (← give flag value given) rest
        | some _, none, [] => .error .misuse
        | some flag, none, value :: rest =>
          if isValue value then do readOptions topic versioned flags (← give flag value given) rest
          else .error .misuse

/-- Reads options and plain arguments up to the separator; what follows it is the server. `most` bounds
the number of plain arguments. -/
def readMixed (topic : Topic) (flags : List Flag) : (most : Nat) → Given → (plain : List String) →
    List String → Except Stop (Given × List String × List String)
  | 0, _, _, _ => .error .misuse
  | n + 1, given, plain, args => do
    match ← readOptions topic false flags given args with
    | (given, .finished, _) => return (given, plain, [])
    | (given, .separator, server) => return (given, plain, server)
    | (given, .plain text, rest) => readMixed topic flags n given (plain ++ [text]) rest

/-- What help is asked for by naming commands. -/
def helpTopic : List String → Except Stop Topic
  | [] => .ok .program
  | ["replay"] => .ok .replay
  | ["inspect"] => .ok .inspect
  | ["help"] => .ok .help
  | _ => .error .misuse

/-- An invocation with options from before and after the command's name. -/
def invocation (before after : Given) (request : Request) : Invocation :=
  let value (name : String) : Option String := after.value? name <|> before.value? name
  ⟨value "config", value "log-file", value "server-command", request⟩

def readCommand (before : Given) (name : String) (args : List String) : Except Stop Invocation :=
  match name with
  | "replay" => do
    let flags := ⟨"workspace", true⟩ :: commonFlags
    let (after, fixtures, server) ← readMixed .replay flags (args.length + 1) [] [] args
    if fixtures.isEmpty || fixtures.any String.isEmpty then throw .misuse
    return invocation before after (.replay fixtures (after.value? "workspace") server)
  | "inspect" => do
    let flags := ⟨"root", true⟩ :: commonFlags
    let (after, others, server) ← readMixed .inspect flags (args.length + 1) [] [] args
    if !others.isEmpty then throw .misuse
    return invocation before after (.inspect (after.value? "root") server)
  | "help" => do throw (.help (← helpTopic args))
  | _ => .error .misuse

def Invocation.ofArguments (args : List String) : Except Stop Invocation := do
  match ← readOptions .program true commonFlags [] args with
  | (given, .plain name, rest) => readCommand given name rest
  | _ => throw .misuse

end ServerProbe.CommandLine
