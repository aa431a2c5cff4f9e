/-!
The text that `printf` and `echo` write.
-/

namespace ServerProbe.Shell

def octal? (c : Char) : Option Nat :=
  if decide ('0' ≤ c) && decide (c ≤ '7') then some (c.toNat - 48) else none

/-- The number of a run of octal digits, and what follows it. -/
def octalRun (value : Nat) : (most : Nat) → List Char → Nat × List Char
  | 0, cs => (value, cs)
  | _, [] => (value, [])
  | n + 1, c :: cs =>
    match octal? c with
    | some d => octalRun (8 * value + d) n cs
    | none => (value, c :: cs)

/-- The character that an escape of one letter stands for. -/
def letterEscape? : Char → Option Char
  | 'n' => some '\n'
  | 't' => some '\t'
  | 'r' => some '\r'
  | 'a' => some (Char.ofNat 7)
  | 'b' => some (Char.ofNat 8)
  | 'f' => some (Char.ofNat 12)
  | 'v' => some (Char.ofNat 11)
  | '\\' => some '\\'
  | _ => none

/-- What follows a backslash: the character it stands for, if any, and the rest. -/
def escape : List Char → Option Char × List Char
  | [] => (none, [])
  | c :: cs =>
    match letterEscape? c, octal? c with
    | some d, _ => (some d, cs)
    | none, some _ =>
      let (value, rest) := octalRun 0 3 (c :: cs)
      (some (Char.ofNat (value % 256)), rest)
    | none, none => (none, c :: cs)

/-- A text with its escapes replaced; an escape of the letter c ends it. `most` bounds the length. -/
def unescape : (most : Nat) → List Char → List Char
  | 0, _ | _, [] => []
  | n + 1, c :: cs =>
    if c != '\\' then c :: unescape n cs
    else if cs.head? == some 'c' then []
    else
      match escape cs with
      | (some d, rest) => d :: unescape n rest
      | (none, rest) => c :: unescape n rest

/-- A whole number with an optional sign; anything else counts as zero. -/
def numberOf (cs : List Char) : Int :=
  let digits := cs.dropWhile fun c => c == '+' || c == '-' || c == ' '
  let n : Int := (digits.takeWhile Char.isDigit).foldl (fun n c => 10 * n + (c.toNat - 48)) 0
  if cs.head? == some '-' then -n else n

def convert (conversion : Char) (argument : List Char) : List Char :=
  match conversion with
  | 's' => argument
  | 'b' => unescape (argument.length + 1) argument
  | 'c' => argument.take 1
  | 'x' => Nat.toDigits 16 (numberOf argument).toNat
  | 'o' => Nat.toDigits 8 (numberOf argument).toNat
  | _ => (toString (numberOf argument)).toList

/-- Writes a format once, and tells which arguments are left. `most` bounds its length. -/
def formatOnce : (most : Nat) → List Char → List (List Char) → List Char × List (List Char)
  | 0, _, args | _, [], args => ([], args)
  | n + 1, c :: cs, args =>
    if c == '\\' then
      let (d, rest) := escape cs
      let (text, left) := formatOnce n rest args
      (d.getD c :: text, left)
    else if c == '%' then
      match cs with
      | '%' :: rest =>
        let (text, left) := formatOnce n rest args
        ('%' :: text, left)
      | conversion :: rest =>
        let (text, left) := formatOnce n rest args.tail
        (convert conversion (args.headD []) ++ text, left)
      | [] => (['%'], args)
    else
      let (text, left) := formatOnce n cs args
      (c :: text, left)

/-- Writes a format again and again for as long as it takes arguments and some are left. -/
def formatAll (format : List Char) : (most : Nat) → List (List Char) → List Char
  | 0, _ => []
  | n + 1, args =>
    let (text, left) := formatOnce (format.length + 1) format args
    if left.isEmpty || left.length == args.length then text else text ++ formatAll format n left

def formatted (format : List Char) (args : List (List Char)) : List Char :=
  formatAll format (args.length + 1) args

/-- The words that `echo` writes, on a line of their own unless told otherwise. -/
def echoed (args : List (List Char)) : List Char :=
  let (ending, args) := if args.head? == some "-n".toList then ([], args.tail) else (['\n'], args)
  let text := [' '].intercalate args
  unescape (text.length + 1) text ++ ending

end ServerProbe.Shell
