import ServerProbe.Shell.Syntax
/-!
Reading shell scripts.

The reader goes down the grammar, and every step of it counts against a bound that is large enough for
the length of the script. Here documents, back quotes, arithmetic and background commands are not
read: a script that has them is refused.
-/

namespace ServerProbe.Shell

abbrev Parse : Type → Type := StateT (List Char) Option

namespace Reader

/-! ### Characters and tokens -/

def isSpace (c : Char) : Bool := c == ' ' || c == '\t'

def isNameStart (c : Char) : Bool := c.isAlpha || c == '_'

def isNameChar (c : Char) : Bool := c.isAlphanum || c == '_'

def apostrophe : Char := Char.ofNat 39

def backquote : Char := Char.ofNat 96

def isBreak (c : Char) : Bool := isSpace c || "\n;&|<>()".toList.contains c

/-- Characters that do not stand for themselves in a word. -/
def isSpecial (c : Char) : Bool := "\\'\"$`".toList.contains c

/-- Skips blanks, continued lines and a comment, and also line ends if `lines`. -/
def skipSpace (lines : Bool) : (comment : Bool) → List Char → List Char
  | _, [] => []
  | true, c :: rest =>
    if c != '\n' then skipSpace lines true rest
    else if lines then skipSpace lines false rest
    else c :: rest
  | false, c :: rest =>
    if isSpace c || (c == '\n' && lines) then skipSpace lines false rest
    else if c == '#' then skipSpace lines true rest
    else if c == '\\' then
      match rest with
      | '\n' :: more => skipSpace lines false more
      | _ => c :: rest
    else c :: rest

def blanks : Parse Unit := modify (skipSpace false false)

def lines : Parse Unit := modify (skipSpace true false)

/-- The characters up to the next one that ends a word. -/
def token : Parse (List Char) := return (← get).takeWhile fun c => !isBreak c

def isAt (text : String) : Parse Bool := return text.toList.isPrefixOf (← get)

/-- Reads a text that has to come next. -/
def expect (text : String) : Parse Unit := do
  if ← isAt text then modify (List.drop text.length) else failure

def accept (text : String) : Parse Bool := do
  if ← isAt text then
    modify (List.drop text.length)
    return true
  return false

/-- Reads a keyword that has to come next, on this line or a later one. -/
def keyword (word : String) : Parse Unit := do
  lines
  if (← token) == word.toList then expect word else failure

def isCloser (word : List Char) : Bool :=
  ["do", "done", "then", "elif", "else", "fi", "esac", "\x7d"].any fun k => k.toList == word

def listEnds : Parse Bool := do
  match ← get with
  | [] => return true
  | ')' :: _ => return true
  | ';' :: ';' :: _ => return true
  | _ => return isCloser (← token)

def takeWhile (p : Char → Bool) : Parse (List Char) := do
  let cs ← get
  set (cs.dropWhile p)
  return cs.takeWhile p

/-- Reads up to a closing mark, and the mark. -/
def upTo (mark : Char) : Parse (List Char) := do
  let text ← takeWhile (· != mark)
  expect mark.toString
  return text

/-- The name of a parameter: a name, or a digit or sign with a meaning of its own. -/
def parameterName : Parse (List Char) := do
  match ← get with
  | c :: rest =>
    if isNameStart c then takeWhile isNameChar
    else if c.isDigit || "#?$@*".toList.contains c then
      set rest
      return [c]
    else failure
  | [] => failure

/-- What an operator in braces does with the word after it. -/
def operator : Parse (List Part → Use) := do
  if ← accept "##" then return .trimmed .longestStart
  if ← accept "#" then return .trimmed .shortestStart
  if ← accept "%%" then return .trimmed .longestEnd
  if ← accept "%" then return .trimmed .shortestEnd
  if ← accept ":-" then return .otherwise true
  if ← accept "-" then return .otherwise false
  if ← accept ":+" then return .provided true
  if ← accept "+" then return .provided false
  failure

inductive Arrow where
  | write (channel : Channel)
  | append (channel : Channel)
  | read
  | same (channel target : Channel)

def channel? : Char → Option Channel
  | '0' => some .input
  | '1' => some .output
  | '2' => some .errors
  | _ => none

/-- Reads the arrow of a redirection of a channel. -/
def arrowOf (channel : Option Channel) : Parse Arrow := do
  let out := channel.getD .output
  if ← accept ">>" then return .append out
  if ← accept ">&" then
    match ← get with
    | d :: rest =>
      let target ← (channel? d : Option Channel)
      set rest
      return .same out target
    | [] => failure
  if ← accept ">" then return .write out
  if ← isAt "<<" then failure
  expect "<"
  return .read

/-- Reads the arrow of a redirection if one comes next. -/
def arrow? : Parse (Option Arrow) := do
  match ← get with
  | d :: c :: rest =>
    if c == '>' || c == '<' then
      match channel? d with
      | some channel =>
        set (c :: rest)
        return some (← arrowOf (some channel))
      | none => if d == '>' || d == '<' then return some (← arrowOf none) else return none
    else if d == '>' || d == '<' then return some (← arrowOf none)
    else return none
  | _ => return none

/-- The name before an assignment, if one comes next. -/
def assigned? : Parse (Option (List Char)) := do
  let cs ← get
  let name := cs.takeWhile isNameChar
  match cs.dropWhile isNameChar with
  | '=' :: rest =>
    if name.head?.any isNameStart then
      set rest
      return some name
    return none
  | _ => return none

/-- The name of a function that is defined here. -/
def defined? : Parse (Option (List Char)) := do
  let cs ← get
  let name := cs.takeWhile isNameChar
  match skipSpace false false (cs.dropWhile isNameChar) with
  | '(' :: rest =>
    match skipSpace false false rest with
    | ')' :: rest =>
      if name.head?.any isNameStart then
        set rest
        return some name
      return none
    | _ => return none
  | _ => return none

/-! ### Grammar -/

mutual

/-- The parts of a word up to a character that ends it. -/
def parts (ends : Char → Bool) : Nat → Parse (List Part)
  | 0 => failure
  | n + 1 => do
    match ← get with
    | [] => return []
    | c :: rest =>
      if ends c then return []
      else if c == '\\' then
        match rest with
        | '\n' :: more =>
          set more
          parts ends n
        | d :: more =>
          set more
          return .text [d] true :: (← parts ends n)
        | [] =>
          set rest
          return [.text [c] true]
      else if c == apostrophe then
        set rest
        let text ← upTo apostrophe
        return .text text true :: (← parts ends n)
      else if c == '"' then
        set rest
        let inner ← quotedParts n
        expect "\""
        return .text [] true :: inner ++ (← parts ends n)
      else if c == '$' then
        set rest
        let part ← dollar false n
        return part :: (← parts ends n)
      else if c == backquote then failure
      else
        let text ← takeWhile fun c => !ends c && !isSpecial c
        return .text text false :: (← parts ends n)

/-- The parts between double quotes, where a backslash escapes only what is special there. -/
def quotedParts : Nat → Parse (List Part)
  | 0 => failure
  | n + 1 => do
    match ← get with
    | [] => failure
    | c :: rest =>
      if c == '"' then return []
      else if c == '\\' then
        match rest with
        | '\n' :: more =>
          set more
          quotedParts n
        | d :: more =>
          set more
          let text := if "$\"\\`".toList.contains d then [d] else [c, d]
          return .text text true :: (← quotedParts n)
        | [] => failure
      else if c == '$' then
        set rest
        let part ← dollar true n
        return part :: (← quotedParts n)
      else if c == backquote then failure
      else
        let text ← takeWhile fun c => !"\"\\$`".toList.contains c
        return .text text true :: (← quotedParts n)

def dollar (quoted : Bool) : Nat → Parse Part
  | 0 => failure
  | n + 1 => do
    if ← isAt "((" then failure
    if ← accept "(" then
      let script ← list n
      lines
      expect ")"
      return .written script quoted
    if ← accept "\x7b" then
      braces quoted n
    else
      match ← get with
      | c :: _ =>
        if isNameStart c || c.isDigit || "#?$@*".toList.contains c then
          return .parameter (← parameterName) .value quoted
        else return .text ['$'] quoted
      | [] => return .text ['$'] quoted

/-- What stands between braces after a dollar sign, and the closing brace. -/
def braces (quoted : Bool) : Nat → Parse Part
  | 0 => failure
  | n + 1 => do
    let close := "\x7d"
    if (← isAt "#") && !(← isAt ("#" ++ close)) then
      expect "#"
      let name ← parameterName
      expect close
      return .parameter name .length quoted
    let name ← parameterName
    if ← accept close then return .parameter name .value quoted
    let use ← operator
    let word ← parts (· == '\x7d') n
    expect close
    return .parameter name (use word) quoted

/-- The words up to the end of a command. -/
def words : Nat → Parse (List (List Part))
  | 0 => failure
  | n + 1 => do
    blanks
    match ← get with
    | [] => return []
    | c :: _ =>
      if isBreak c then return []
      let word ← parts isBreak n
      return word :: (← words n)

def redirects : Nat → Parse (List Redirect)
  | 0 => failure
  | n + 1 => do
    blanks
    match ← arrow? with
    | none => return []
    | some arrow =>
      let r ← redirect arrow n
      return r :: (← redirects n)

def redirect (arrow : Arrow) : Nat → Parse Redirect
  | 0 => failure
  | n + 1 => do
    match arrow with
    | .same channel target => return .same channel target
    | .write channel =>
      blanks
      return .write channel (← parts isBreak n)
    | .append channel =>
      blanks
      return .append channel (← parts isBreak n)
    | .read =>
      blanks
      return .read (← parts isBreak n)

def simple (assignments : List (List Char × List Part)) (said : List (List Part))
    (redirected : List Redirect) : Nat → Parse Command
  | 0 => failure
  | n + 1 => do
    blanks
    match ← arrow? with
    | some arrow =>
      let r ← redirect arrow n
      simple assignments said (redirected ++ [r]) n
    | none =>
      match ← get with
      | [] => return .simple assignments said redirected
      | c :: _ =>
        if isBreak c then return .simple assignments said redirected
        let name ← if said.isEmpty then assigned? else pure none
        let word ← parts isBreak n
        match name with
        | some name => simple (assignments ++ [(name, word)]) said redirected n
        | none => simple assignments (said ++ [word]) redirected n

/-- The rest of a conditional command, after its first word. -/
def branch : Nat → Parse Command
  | 0 => failure
  | n + 1 => do
    let condition ← list n
    keyword "then"
    let yes ← list n
    lines
    let word ← token
    if word == "elif".toList then
      keyword "elif"
      return .branch condition yes [← branch n]
    else if word == "else".toList then
      keyword "else"
      let no ← list n
      keyword "fi"
      return .branch condition yes no
    else
      keyword "fi"
      return .branch condition yes []

/-- The patterns of an arm, up to its bracket. -/
def patterns : Nat → Parse (List (List Part))
  | 0 => failure
  | n + 1 => do
    blanks
    let word ← parts isBreak n
    blanks
    if ← accept "|" then return word :: (← patterns n)
    expect ")"
    return [word]

def arms : Nat → Parse (List (List (List Part) × List Command))
  | 0 => failure
  | n + 1 => do
    lines
    if (← token) == "esac".toList then return []
    let _ ← accept "("
    let ps ← patterns n
    let body ← list n
    lines
    if ← accept ";;" then return (ps, body) :: (← arms n)
    return [(ps, body)]

def body : Nat → Parse (List Command)
  | 0 => failure
  | n + 1 => do
    keyword "do"
    let commands ← list n
    keyword "done"
    return commands

/-- A command without what may follow it on its line. -/
def command : Nat → Parse Command
  | 0 => failure
  | n + 1 => do
    blanks
    if ← accept "(" then
      let commands ← list n
      lines
      expect ")"
      return .redirected (.subshell commands) (← redirects n)
    match ← defined? with
    | some name =>
      lines
      return .define name (← command n)
    | none =>
      let word ← token
      if isCloser word then failure
      else if word == ['\x7b'] then
        expect "\x7b"
        let commands ← list n
        keyword "\x7d"
        return .redirected (.group commands) (← redirects n)
      else if word == "while".toList || word == "until".toList then
        set ((← get).drop word.length)
        let condition ← list n
        let commands ← body n
        return .redirected (.loop (word == "until".toList) condition commands) (← redirects n)
      else if word == "if".toList then
        keyword "if"
        let c ← branch n
        return .redirected c (← redirects n)
      else if word == "for".toList then
        keyword "for"
        blanks
        let name ← takeWhile isNameChar
        keyword "in"
        let ws ← words n
        let _ ← accept ";"
        let commands ← body n
        return .redirected (.each name ws commands) (← redirects n)
      else if word == "case".toList then
        keyword "case"
        blanks
        let subject ← parts isBreak n
        keyword "in"
        let choices ← arms n
        keyword "esac"
        return .redirected (.choose subject choices) (← redirects n)
      else if word == ['!'] then
        expect "!"
        return .negate (← command n)
      else simple [] [] [] n

def pipeline : Nat → Parse Command
  | 0 => failure
  | n + 1 => do
    let first ← command n
    blanks
    if (← isAt "|") && !(← isAt "||") then
      expect "|"
      lines
      return .pipe first (← pipeline n)
    return first

/-- Goes on after a pipeline with those that depend on how it ended. -/
def dependent (first : Command) : Nat → Parse Command
  | 0 => failure
  | n + 1 => do
    blanks
    if ← accept "&&" then
      lines
      let second ← pipeline n
      dependent (.both first second) n
    else if ← accept "||" then
      lines
      let second ← pipeline n
      dependent (.either first second) n
    else return first

/-- Commands one after the other, up to what ends the list. -/
def list : Nat → Parse (List Command)
  | 0 => failure
  | n + 1 => do
    lines
    if ← listEnds then return []
    let first ← pipeline n
    let c ← dependent first n
    blanks
    if ← isAt ";;" then return [c]
    if ← isAt "&" then failure
    if (← accept ";") || (← accept "\n") then return c :: (← list n)
    return [c]

end

def script? (text : List Char) : Option Script :=
  match (do let cs ← list (20 * text.length + 100); lines; return cs : Parse Script).run text with
  | some (cs, []) => some cs
  | _ => none

end Reader
end ServerProbe.Shell
