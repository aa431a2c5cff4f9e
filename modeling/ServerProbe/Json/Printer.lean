import ServerProbe.Json.Basic
import ServerProbe.Decimal.Shortest
/-!
JSON text. `Json.compact` writes no blanks; `Json.indented` puts each item on a line of its own, two
blanks deeper than its container.
-/

namespace ServerProbe

def hexDigit (n : Nat) : Char := (Nat.toDigits 16 n).headD '0'

/-- Characters that are written by an escape inside a JSON string. -/
def Json.escaped (c : Char) : List Char :=
  if c == '"' then ['\\', '"']
  else if c == '\\' then ['\\', '\\']
  else if c == '\n' then ['\\', 'n']
  else if c == '\r' then ['\\', 'r']
  else if c == '\t' then ['\\', 't']
  else if c.toNat == 8 then ['\\', 'b']
  else if c.toNat == 12 then ['\\', 'f']
  else if c.toNat < 32 then ['\\', 'u', '0', '0', hexDigit (c.toNat / 16), hexDigit (c.toNat % 16)]
  else [c]

def Json.quote (s : String) : String :=
  String.ofList ('"' :: s.toList.flatMap Json.escaped ++ ['"'])

def Number.render : Number → String
  | .int n => toString n
  | .double x => x.render

namespace Json

mutual

def compact : Json → String
  | .null => "null"
  | .bool true => "true"
  | .bool false => "false"
  | .num n => n.render
  | .str s => quote s
  | .arr [] => "[]"
  | .arr (v :: rest) => "[" ++ compact v ++ compactItems rest ++ "]"
  | .obj [] => "\x7b\x7d"
  | .obj ((k, v) :: rest) =>
    "\x7b" ++ quote k ++ ":" ++ compact v ++ compactMembers rest ++ "\x7d"

def compactItems : List Json → String
  | [] => ""
  | v :: rest => "," ++ compact v ++ compactItems rest

def compactMembers : List (String × Json) → String
  | [] => ""
  | (k, v) :: rest => "," ++ quote k ++ ":" ++ compact v ++ compactMembers rest

end

def newLine (depth : Nat) : String := "\n" ++ String.ofList (List.replicate (2 * depth) ' ')

mutual

/-- The text of a document at `depth`, one item a line. -/
def indentedAt (depth : Nat) : Json → String
  | .arr (v :: rest) =>
    "[" ++ newLine (depth + 1) ++ indentedAt (depth + 1) v ++ indentedItems depth rest
  | .obj ((k, v) :: rest) =>
    "\x7b" ++ newLine (depth + 1) ++ quote k ++ ": " ++ indentedAt (depth + 1) v
      ++ indentedMembers depth rest
  | .null => "null"
  | .bool true => "true"
  | .bool false => "false"
  | .num n => n.render
  | .str s => quote s
  | .arr [] => "[]"
  | .obj [] => "\x7b\x7d"

def indentedItems (depth : Nat) : List Json → String
  | [] => newLine depth ++ "]"
  | v :: rest => "," ++ newLine (depth + 1) ++ indentedAt (depth + 1) v ++ indentedItems depth rest

def indentedMembers (depth : Nat) : List (String × Json) → String
  | [] => newLine depth ++ "\x7d"
  | (k, v) :: rest =>
    "," ++ newLine (depth + 1) ++ quote k ++ ": " ++ indentedAt (depth + 1) v
      ++ indentedMembers depth rest

end

def indented (v : Json) : String := indentedAt 0 v

end Json
end ServerProbe
