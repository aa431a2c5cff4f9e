/-!
Blank and control characters, and trimming.
-/

namespace ServerProbe.Text

def isBlank (c : Char) : Bool :=
  let n := c.toNat
  (decide (9 ≤ n) && decide (n ≤ 13)) || n == 32 || n == 0x85 || n == 0xA0 || n == 0x1680
    || (decide (0x2000 ≤ n) && decide (n ≤ 0x200A)) || n == 0x2028 || n == 0x2029 || n == 0x202F
    || n == 0x205F || n == 0x3000

def isControl (c : Char) : Bool :=
  decide (c.toNat < 32) || (decide (127 ≤ c.toNat) && decide (c.toNat < 160))

/-- A text without the blanks at its ends. -/
def trim (cs : List Char) : List Char :=
  ((cs.dropWhile isBlank).reverse.dropWhile isBlank).reverse

def words (cs : List Char) : List (List Char) :=
  let step (c : Char) : List (List Char) → List (List Char)
    | [] => if isBlank c then [[]] else [[c]]
    | w :: ws => if isBlank c then [] :: w :: ws else (c :: w) :: ws
  (cs.foldr step []).filter fun w => !w.isEmpty

/-- The text before and after the first `mark`. -/
def splitAt? (mark : Char) : List Char → Option (List Char × List Char)
  | [] => none
  | c :: cs => if c == mark then some ([], cs) else (splitAt? mark cs).map fun (a, b) => (c :: a, b)

/-- The parts of a text between `mark`s; there is always at least one. -/
def parts (mark : Char) : List Char → List (List Char)
  | [] => [[]]
  | c :: cs =>
    if c == mark then [] :: parts mark cs
    else match parts mark cs with
      | [] => [[c]]
      | p :: ps => (c :: p) :: ps

/-- A text with every occurrence of `old` replaced, from left to right. `skip` counts characters that
belong to an occurrence already replaced. -/
def replaceFrom (old new : List Char) : Nat → List Char → List Char
  | _, [] => []
  | skip + 1, _ :: cs => replaceFrom old new skip cs
  | 0, c :: cs =>
    if old.isPrefixOf (c :: cs) then new ++ replaceFrom old new (old.length - 1) cs
    else c :: replaceFrom old new 0 cs

def replace (old new s : String) : String :=
  String.ofList (replaceFrom old.toList new.toList 0 s.toList)

def hasPart (part : List Char) : List Char → Bool
  | [] => part.isEmpty
  | c :: cs => part.isPrefixOf (c :: cs) || hasPart part cs

/-- Equality of texts that ignores the case of the letters from A to Z. -/
def sameLetters : List Char → List Char → Bool
  | [], [] => true
  | a :: as, b :: bs => a.toLower == b.toLower && sameLetters as bs
  | _, _ => false

end ServerProbe.Text
