import ServerProbe.Json.Basic
import ServerProbe.Decimal.Literal
/-!
Reading JSON text. Documents nest at most 127 containers, strings hold no raw control characters,
and surrogate escapes come in pairs.
-/

namespace ServerProbe.Json.Reader

open ServerProbe.Decimal (Literal)

/-- What a reader returns: a value and the text after it. -/
abbrev Read (α : Type) : Type := Option (α × List Char)

def isBlank (c : Char) : Bool := c == ' ' || c == '\n' || c == '\r' || c == '\t'

def skipBlanks (cs : List Char) : List Char := cs.dropWhile isBlank

def isDigit (c : Char) : Bool := decide ('0' ≤ c) && decide (c ≤ '9')

def digitValue (c : Char) : Nat := c.toNat - 48

def hexValue? (c : Char) : Option Nat :=
  if '0' ≤ c ∧ c ≤ '9' then some (c.toNat - 48)
  else if 'a' ≤ c ∧ c ≤ 'f' then some (c.toNat - 87)
  else if 'A' ≤ c ∧ c ≤ 'F' then some (c.toNat - 55)
  else none

def hexUnit? (a b c d : Char) : Option Nat := do
  let a ← hexValue? a
  let b ← hexValue? b
  let c ← hexValue? c
  let d ← hexValue? d
  return ((a * 16 + b) * 16 + c) * 16 + d

def isLead (unit : Nat) : Bool := decide (0xD800 ≤ unit) && decide (unit < 0xDC00)

def isTrail (unit : Nat) : Bool := decide (0xDC00 ≤ unit) && decide (unit < 0xE000)

def shortEscape? : Char → Option Char
  | '"' => some '"'
  | '\\' => some '\\'
  | '/' => some '/'
  | 'b' => some (Char.ofNat 8)
  | 'f' => some (Char.ofNat 12)
  | 'n' => some '\n'
  | 'r' => some '\r'
  | 't' => some '\t'
  | _ => none

/-- The rest of a string whose opening quote has been read; `seen` holds its characters so far,
the last one first. -/
def string (seen : List Char) : List Char → Read String
  | '"' :: rest => some (String.ofList seen.reverse, rest)
  | '\\' :: 'u' :: a :: b :: c :: d :: '\\' :: 'u' :: e :: f :: g :: h :: rest =>
    match hexUnit? a b c d with
    | none => none
    | some unit =>
      if isLead unit then
        match hexUnit? e f g h with
        | none => none
        | some low =>
          if isTrail low then
            string (Char.ofNat (0x10000 + (unit - 0xD800) * 0x400 + (low - 0xDC00)) :: seen) rest
          else none
      else if isTrail unit then none
      else string (Char.ofNat unit :: seen) ('\\' :: 'u' :: e :: f :: g :: h :: rest)
  | '\\' :: 'u' :: a :: b :: c :: d :: rest =>
    match hexUnit? a b c d with
    | none => none
    | some unit => if isLead unit || isTrail unit then none else string (Char.ofNat unit :: seen) rest
  | '\\' :: c :: rest =>
    match shortEscape? c with
    | none => none
    | some c => string (c :: seen) rest
  | c :: rest => if c == '\\' || c.toNat < 32 then none else string (c :: seen) rest
  | [] => none

/-- A run of digits and the text after it. -/
def digits (cs : List Char) : List Nat × List Char :=
  ((cs.takeWhile isDigit).map digitValue, cs.dropWhile isDigit)

/-- The digits of the whole part; only a lone zero may start with zero. -/
def whole (cs : List Char) : Read (List Nat) :=
  match digits cs with
  | ([], _) => none
  | (0 :: _ :: _, _) => none
  | (ds, rest) => some (ds, rest)

def fraction : List Char → Read (Option (List Nat))
  | '.' :: cs =>
    match digits cs with
    | ([], _) => none
    | (ds, rest) => some (some ds, rest)
  | cs => some (none, cs)

def exponentDigits (down : Bool) (cs : List Char) : Read (Option (Bool × List Nat)) :=
  match digits cs with
  | ([], _) => none
  | (ds, rest) => some (some (down, ds), rest)

def exponent : List Char → Read (Option (Bool × List Nat))
  | c :: cs =>
    if c == 'e' || c == 'E' then
      match cs with
      | '+' :: rest => exponentDigits false rest
      | '-' :: rest => exponentDigits true rest
      | rest => exponentDigits false rest
    else some (none, c :: cs)
  | [] => some (none, [])

def number (negative : Bool) (cs : List Char) : Option (Json × List Char) := do
  let (ds, cs) ← whole cs
  let (frac, cs) ← fraction cs
  let (exp, cs) ← exponent cs
  let literal : Literal := ⟨negative, ds, frac, exp⟩
  match literal.toInt? with
  | some n => some (.int n, cs)
  | none => literal.toDouble.map fun x => (.num (.double x), cs)

/-- The text after `word`, when it starts with it. -/
def after? : List Char → List Char → Option (List Char)
  | [], cs => some cs
  | w :: ws, c :: cs => if w == c then after? ws cs else none
  | _ :: _, [] => none

mutual

/-- A value after blanks. `depth` is how many more containers may be opened, and `fuel` bounds the
calls that follow. -/
def value (depth : Nat) : Nat → List Char → Read Json
  | 0, _ => none
  | fuel + 1, cs =>
    match skipBlanks cs with
    | 'n' :: rest => (after? "ull".toList rest).map fun rest => (.null, rest)
    | 't' :: rest => (after? "rue".toList rest).map fun rest => (.bool true, rest)
    | 'f' :: rest => (after? "alse".toList rest).map fun rest => (.bool false, rest)
    | '"' :: rest => (string [] rest).map fun (s, rest) => (.str s, rest)
    | '[' :: rest =>
      match depth with
      | 0 => none
      | depth + 1 =>
        match skipBlanks rest with
        | ']' :: rest => some (.arr [], rest)
        | rest => (items depth fuel rest).map fun (vs, rest) => (.arr vs, rest)
    | '\x7b' :: rest =>
      match depth with
      | 0 => none
      | depth + 1 =>
        match skipBlanks rest with
        | '\x7d' :: rest => some (.obj [], rest)
        | rest => (members depth fuel rest).map fun (ms, rest) => (.obj (ordered ms), rest)
    | '-' :: rest => number true rest
    | rest => number false rest

/-- At least one item, up to the closing bracket. -/
def items (depth : Nat) : Nat → List Char → Read (List Json)
  | 0, _ => none
  | fuel + 1, cs =>
    match value depth fuel cs with
    | none => none
    | some (v, rest) =>
      match skipBlanks rest with
      | ']' :: rest => some ([v], rest)
      | ',' :: rest => (items depth fuel rest).map fun (vs, rest) => (v :: vs, rest)
      | _ => none

/-- At least one member, up to the closing brace, in written order. -/
def members (depth : Nat) : Nat → List Char → Read (List (String × Json))
  | 0, _ => none
  | fuel + 1, cs =>
    match skipBlanks cs with
    | '"' :: rest =>
      match string [] rest with
      | none => none
      | some (key, rest) =>
        match skipBlanks rest with
        | ':' :: rest =>
          match value depth fuel rest with
          | none => none
          | some (v, rest) =>
            match skipBlanks rest with
            | '\x7d' :: rest => some ([(key, v)], rest)
            | ',' :: rest => (members depth fuel rest).map fun (ms, rest) => ((key, v) :: ms, rest)
            | _ => none
        | _ => none
    | _ => none

end

def greatestDepth : Nat := 127

end Reader

/-- The document a text holds, with nothing but blanks around it. -/
def parse? (text : String) : Option Json :=
  let cs := text.toList
  match Reader.value Reader.greatestDepth (2 * cs.length + 2) cs with
  | some (v, rest) => if (Reader.skipBlanks rest).isEmpty then some v else none
  | none => none

/-- The keys that the object in a text is written with, repetitions included. -/
def writtenKeys (text : String) : List String :=
  match Reader.skipBlanks text.toList with
  | '\x7b' :: rest =>
    match Reader.members (Reader.greatestDepth - 1) (2 * rest.length + 2) rest with
    | some (ms, _) => ms.map Prod.fst
    | none => []
  | _ => []

end ServerProbe.Json
