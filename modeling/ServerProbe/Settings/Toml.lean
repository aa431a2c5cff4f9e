import ServerProbe.Json.Reader
/-!
The part of TOML that settings are written in: tables, lists, texts, whole numbers and flags. A
document becomes a JSON object. Fractions, dates and lists of tables have no place in settings and are
refused with everything that is no TOML at all.
-/

namespace ServerProbe.Toml

/-- What a reader returns: a value and the text after it. -/
abbrev Read (α : Type) : Type := Option (α × List Char)

/-! ### Blanks and comments -/

def isBlank (c : Char) : Bool := c == ' ' || c == '\t'

def skipBlanks (cs : List Char) : List Char := cs.dropWhile isBlank

def isPrintable (c : Char) : Bool := c == '\t' || (decide (32 ≤ c.toNat) && c.toNat != 127)

def afterLine? : List Char → Option (List Char)
  | '\n' :: rest => some rest
  | '\r' :: '\n' :: rest => some rest
  | _ => none

/-- The text after a comment, if there is one. -/
def skipComment : List Char → List Char
  | '#' :: rest => rest.dropWhile isPrintable
  | cs => cs

/-- Skips blanks, comments and line ends; `fuel` bounds the number of lines. -/
def skipLines : Nat → List Char → List Char
  | 0, cs => cs
  | fuel + 1, cs =>
    let cs := skipComment (skipBlanks cs)
    match afterLine? cs with
    | some rest => skipLines fuel rest
    | none => cs

def skipAll (cs : List Char) : List Char := skipLines (cs.length + 1) cs

/-- What ends a line: blanks, a comment, and a line end or the end of the text. -/
def endLine? (cs : List Char) : Option (List Char) :=
  match skipComment (skipBlanks cs) with
  | [] => some []
  | rest => afterLine? rest

/-! ### Texts -/

def hexChar? (count : Nat) (cs : List Char) : Option (Char × List Char) := do
  let ds ← (cs.take count).mapM Json.Reader.hexValue?
  let n := ds.foldl (fun n d => n * 16 + d) 0
  if ds.length == count && (decide (n < 0xD800) || (decide (0xDFFF < n) && decide (n < 0x110000))) then
    return (Char.ofNat n, cs.drop count)
  else none

/-- The character an escape stands for; `cs` is what follows the backslash. -/
def readEscape (cs : List Char) : Read Char :=
  match cs with
  | 'b' :: rest => some (Char.ofNat 8, rest)
  | 't' :: rest => some ('\t', rest)
  | 'n' :: rest => some ('\n', rest)
  | 'f' :: rest => some (Char.ofNat 12, rest)
  | 'r' :: rest => some ('\r', rest)
  | 'e' :: rest => some (Char.ofNat 27, rest)
  | '"' :: rest => some ('"', rest)
  | '\\' :: rest => some ('\\', rest)
  | 'x' :: rest => hexChar? 2 rest
  | 'u' :: rest => hexChar? 4 rest
  | 'U' :: rest => hexChar? 8 rest
  | _ => none

/-- The rest of a text on one line. A literal text ends at a single quote and knows no escapes. -/
def readShort (literal : Bool) : Nat → List Char → List Char → Read String
  | 0, _, _ => none
  | _ + 1, _, [] => none
  | fuel + 1, seen, c :: cs =>
    if c == (if literal then '\'' else '"') then some (String.ofList seen.reverse, cs)
    else if c == '\\' && !literal then
      match readEscape cs with
      | some (e, cs) => readShort literal fuel (e :: seen) cs
      | none => none
    else if isPrintable c then readShort literal fuel (c :: seen) cs
    else none

/-- The text after a backslash at the end of a line: all blanks and line ends are dropped. -/
def afterFold? (cs : List Char) : Option (List Char) :=
  (afterLine? (skipBlanks cs)).map fun rest =>
    rest.dropWhile fun c => isBlank c || c == '\n' || c == '\r'

/-- The rest of a text over several lines, which three quotes end. Up to two quotes before them belong
to the text. -/
def readLong (literal : Bool) : Nat → List Char → List Char → Read String
  | 0, _, _ => none
  | _ + 1, _, [] => none
  | fuel + 1, seen, c :: cs =>
    let quote := if literal then '\'' else '"'
    let run := (c :: cs).takeWhile (· == quote)
    if 3 ≤ run.length then
      if 5 < run.length then none
      else some (String.ofList (List.replicate (run.length - 3) quote ++ seen).reverse, (c :: cs).drop run.length)
    else if c == '\\' && !literal then
      match afterFold? cs with
      | some rest => readLong literal fuel seen rest
      | none =>
        match readEscape cs with
        | some (e, cs) => readLong literal fuel (e :: seen) cs
        | none => none
    else
      match afterLine? (c :: cs) with
      | some rest => readLong literal fuel ('\n' :: seen) rest
      | none => if isPrintable c then readLong literal fuel (c :: seen) cs else none

def readText (cs : List Char) : Read String :=
  let long (literal : Bool) (cs : List Char) : Read String :=
    readLong literal (cs.length + 1) [] ((afterLine? cs).getD cs)
  match cs with
  | '"' :: '"' :: '"' :: rest => long false rest
  | '\'' :: '\'' :: '\'' :: rest => long true rest
  | '"' :: rest => readShort false (rest.length + 1) [] rest
  | '\'' :: rest => readShort true (rest.length + 1) [] rest
  | _ => none

/-! ### Keys -/

def isBare (c : Char) : Bool :=
  (decide ('a' ≤ c) && decide (c ≤ 'z')) || (decide ('A' ≤ c) && decide (c ≤ 'Z'))
    || (decide ('0' ≤ c) && decide (c ≤ '9')) || c == '_' || c == '-'

def isLongQuote : List Char → Bool
  | '"' :: '"' :: '"' :: _ => true
  | '\'' :: '\'' :: '\'' :: _ => true
  | _ => false

/-- One name of a key: bare, or a text on one line. -/
def readName (cs : List Char) : Read String :=
  match cs.takeWhile isBare with
  | [] => if isLongQuote cs then none else readText cs
  | name => some (String.ofList name, cs.dropWhile isBare)

def readKey : Nat → List Char → Read (List String)
  | 0, _ => none
  | fuel + 1, cs =>
    match readName (skipBlanks cs) with
    | none => none
    | some (name, rest) =>
      match skipBlanks rest with
      | '.' :: rest => (readKey fuel rest).map fun (names, rest) => (name :: names, rest)
      | rest => some ([name], rest)

/-! ### Numbers and flags -/

def digit? (base : Nat) (c : Char) : Option Nat :=
  (Json.Reader.hexValue? c).bind fun d => if d < base then some d else none

def digits? (base : Nat) : List Char → Option (List Nat)
  | [] => none
  | [c] => (digit? base c).map ([·])
  | c :: '_' :: cs => (digit? base c).bind fun d => (digits? base cs).map (d :: ·)
  | c :: cs => (digit? base c).bind fun d => (digits? base cs).map (d :: ·)

def number? (base : Nat) (cs : List Char) : Option Int :=
  (digits? base cs).map fun ds => ((ds.foldl (fun n d => n * base + d) 0 : Nat) : Int)

/-- A whole number. A decimal one has no zeros in front. -/
def whole? : List Char → Option Int
  | '0' :: 'x' :: cs => number? 16 cs
  | '0' :: 'o' :: cs => number? 8 cs
  | '0' :: 'b' :: cs => number? 2 cs
  | '+' :: cs => if cs.length == 1 || cs.head? != some '0' then number? 10 cs else none
  | '-' :: cs => if cs.length == 1 || cs.head? != some '0' then (number? 10 cs).map (- ·) else none
  | cs => if cs.length == 1 || cs.head? != some '0' then number? 10 cs else none

def isWordPart (c : Char) : Bool := isBare c || c == '+' || c == '.' || c == ':'

def readWord (cs : List Char) : Read Json :=
  let value : Option Json :=
    match String.ofList (cs.takeWhile isWordPart) with
    | "true" => some (.bool true)
    | "false" => some (.bool false)
    | word => (whole? word.toList).bind fun n =>
      if -(UInt64.size / 2 : Nat) ≤ n ∧ n < UInt64.size then some (.int n) else none
  value.map fun v => (v, cs.dropWhile isWordPart)

/-! ### Tables -/

/-- How a table came to be: on the way to another one, by a key with points, or by a header. -/
inductive Origin where
  | implied
  | dotted
  | headed
deriving DecidableEq, Repr

/-- A value is closed; a table may still get members. -/
inductive Node where
  | value (v : Json)
  | table (origin : Origin) (members : List (String × Node))

abbrev Members : Type := List (String × Node)

def find? (name : String) : Members → Option Node
  | [] => none
  | (k, n) :: rest => if k == name then some n else find? name rest

def put (name : String) (node : Node) (members : Members) : Members :=
  (name, node) :: members.filter fun m => m.1 != name

/-- Adds a value under a key with points. The tables on the way are new or come from such keys. -/
def assign (v : Json) : List String → Members → Option Members
  | [], _ => none
  | [name], members => if (find? name members).isSome then none else some (put name (.value v) members)
  | name :: rest, members =>
    match find? name members with
    | none => (assign v rest []).map fun inner => put name (.table .dotted inner) members
    | some (.table .headed _) => none
    | some (.table origin inner) => (assign v rest inner).map fun inner => put name (.table origin inner) members
    | some (.value _) => none

/-- Adds a value to the table that a header names. -/
def assignUnder (v : Json) (key : List String) : List String → Members → Option Members
  | [], members => assign v key members
  | name :: rest, members =>
    match find? name members with
    | some (.table origin inner) =>
      (assignUnder v key rest inner).map fun inner => put name (.table origin inner) members
    | _ => none

/-- Makes room for the table that a header names. A table has at most one header. -/
def openTable : List String → Members → Option Members
  | [], _ => none
  | [name], members =>
    match find? name members with
    | none => some (put name (.table .headed []) members)
    | some (.table .implied inner) => some (put name (.table .headed inner) members)
    | some _ => none
  | name :: rest, members =>
    match find? name members with
    | none => (openTable rest []).map fun inner => put name (.table .implied inner) members
    | some (.table origin inner) => (openTable rest inner).map fun inner => put name (.table origin inner) members
    | some (.value _) => none

mutual

def Node.toJson : Node → Json
  | .value v => v
  | .table _ members => .ofMembers (membersJson members)

def membersJson : Members → List (String × Json)
  | [] => []
  | (k, n) :: rest => (k, n.toJson) :: membersJson rest

end

/-! ### Values -/

mutual

/-- A value; `fuel` bounds the calls that follow. -/
def readValue : Nat → List Char → Read Json
  | 0, _ => none
  | fuel + 1, cs =>
    match cs with
    | '[' :: rest =>
      match skipAll rest with
      | ']' :: rest => some (.arr [], rest)
      | rest => (readItems fuel rest).map fun (vs, rest) => (.arr vs, rest)
    | '\x7b' :: rest =>
      match skipAll rest with
      | '\x7d' :: rest => some (.obj [], rest)
      | rest => (readMembers fuel [] rest).map fun (ms, rest) => (.ofMembers (membersJson ms), rest)
    | '"' :: _ | '\'' :: _ => (readText cs).map fun (s, rest) => (.str s, rest)
    | _ => readWord cs

/-- At least one item, up to the closing bracket. -/
def readItems : Nat → List Char → Read (List Json)
  | 0, _ => none
  | fuel + 1, cs =>
    match readValue fuel cs with
    | none => none
    | some (v, rest) =>
      match skipAll rest with
      | ']' :: rest => some ([v], rest)
      | ',' :: rest =>
        match skipAll rest with
        | ']' :: rest => some ([v], rest)
        | rest => (readItems fuel rest).map fun (vs, rest) => (v :: vs, rest)
      | _ => none

/-- At least one member, up to the closing brace. -/
def readMembers : Nat → Members → List Char → Read Members
  | 0, _, _ => none
  | fuel + 1, seen, cs =>
    match readKey (cs.length + 1) cs with
    | some (key, '=' :: rest) =>
      match readValue fuel (skipBlanks rest) with
      | none => none
      | some (v, rest) =>
        match assign v key seen with
        | none => none
        | some seen =>
          match skipAll rest with
          | '\x7d' :: rest => some (seen, rest)
          | ',' :: rest =>
            match skipAll rest with
            | '\x7d' :: rest => some (seen, rest)
            | rest => readMembers fuel seen rest
          | _ => none
    | _ => none

end

/-- The lines of a document; `header` names the table they belong to. -/
def readLines : Nat → List String → Members → List Char → Option Members
  | 0, _, _, _ => none
  | fuel + 1, header, members, cs =>
    match skipAll cs with
    | [] => some members
    | '[' :: rest =>
      match readKey (rest.length + 1) rest with
      | some (key, ']' :: rest) =>
        match openTable key members, endLine? rest with
        | some members, some rest => readLines fuel key members rest
        | _, _ => none
      | _ => none
    | cs =>
      match readKey (cs.length + 1) cs with
      | some (key, '=' :: rest) =>
        match readValue (rest.length + 1) (skipBlanks rest) with
        | none => none
        | some (v, rest) =>
          match assignUnder v key header members, endLine? rest with
          | some members, some rest => readLines fuel header members rest
          | _, _ => none
      | _ => none

/-- The object that a document of settings holds. A byte order mark at its front is passed over. -/
def parse? (text : String) : Option Json :=
  let cs := match text.toList with
    | c :: rest => if c.toNat == 0xFEFF then rest else c :: rest
    | [] => []
  (readLines (cs.length + 1) [] [] cs).map fun members => .ofMembers (membersJson members)

end ServerProbe.Toml
