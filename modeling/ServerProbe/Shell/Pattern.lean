/-!
Patterns of the shell: a star stands for any text, a question mark for any character, and brackets for
one character of a set.
-/

namespace ServerProbe.Shell

inductive Atom where
  | many
  | one
  | char (c : Char)
  | set (negated : Bool) (ranges : List (Char × Char))
deriving DecidableEq, Repr

abbrev Pattern : Type := List Atom

namespace Pattern

def admits (c : Char) : Atom → Bool
  | .many | .one => true
  | .char d => c == d
  | .set negated ranges => (ranges.any fun r => decide (r.1 ≤ c) && decide (c ≤ r.2)) != negated

def isMet : Pattern → List Char → Bool
  | [], cs => cs.isEmpty
  | .many :: rest, [] => isMet rest []
  | .many :: rest, c :: cs => isMet rest (c :: cs) || isMet (.many :: rest) cs
  | _ :: _, [] => false
  | a :: rest, c :: cs => admits c a && isMet rest cs
termination_by p cs => p.length + cs.length

/-- The lengths of what stands before each end that matches; `before` counts what has been passed. -/
def cuts (p : Pattern) (before : Nat) : List Char → List Nat
  | [] => if p.isMet [] then [before] else []
  | c :: cs =>
    let later := cuts p (before + 1) cs
    if p.isMet (c :: cs) then before :: later else later

/-- The text without a match at its end, which is the longest one or the shortest. -/
def dropEnd (longestMatch : Bool) (p : Pattern) (cs : List Char) : List Char :=
  let cuts := p.cuts 0 cs
  match if longestMatch then cuts.head? else cuts.getLast? with
  | some n => cs.take n
  | none => cs

/-- The text without a match at its beginning: the same as at the end of the reversed text. -/
def dropStart (longestMatch : Bool) (p : Pattern) (cs : List Char) : List Char :=
  (dropEnd longestMatch p.reverse cs.reverse).reverse

/-- A character of a pattern, and whether it stands only for itself. -/
abbrev Sign : Type := Char × Bool

/-- The ranges of a set, up to the bracket that closes it. One that comes first belongs to the set. -/
def readSet : (first : Bool) → List Sign → Option (List (Char × Char) × List Sign)
  | _, [] => none
  | first, (c, quoted) :: rest =>
    if c == ']' && !quoted && !first then some ([], rest)
    else
      match _h : rest with
      | ('-', false) :: (d, q) :: more =>
        if d == ']' && !q then (readSet false rest).map fun (rs, left) => ((c, c) :: rs, left)
        else (readSet false more).map fun (rs, left) => ((c, d) :: rs, left)
      | _ => (readSet false rest).map fun (rs, left) => ((c, c) :: rs, left)
termination_by _ signs => signs.length
decreasing_by all_goals simp_all <;> omega

def readBracket? : List Sign → Option (Atom × List Sign)
  | ('!', false) :: rest => (readSet true rest).map fun (rs, left) => (.set true rs, left)
  | rest => (readSet true rest).map fun (rs, left) => (.set false rs, left)

def readFrom : (signs : Nat) → List Sign → Pattern
  | 0, _ | _, [] => []
  | n + 1, (c, quoted) :: rest =>
    if quoted then .char c :: readFrom n rest
    else if c == '*' then .many :: readFrom n rest
    else if c == '?' then .one :: readFrom n rest
    else if c == '[' then
      match readBracket? rest with
      | some (a, left) => a :: readFrom n left
      | none => .char c :: readFrom n rest
    else .char c :: readFrom n rest

def ofSigns (signs : List Sign) : Pattern := readFrom signs.length signs

end Pattern
end ServerProbe.Shell
