import ServerProbe.Text.Blank
/-!
Names of files, written with slashes.

The parts of a path are its names between slashes. Empty parts and single dots are passed over,
except a dot that a relative path begins with.
-/

namespace ServerProbe.Path

def isAbsolute (path : String) : Bool := path.toList.head? == some '/'

/-- A path read from a directory; an absolute path stands for itself. -/
def join (base path : String) : String :=
  if isAbsolute path then path
  else if base.isEmpty || base.toList.getLast? == some '/' then base ++ path
  else base ++ "/" ++ path

/-- Drops what is passed over at the end of a path, whose parts are given from the last on. -/
def dropIdle (absolute : Bool) : List (List Char) → List (List Char)
  | [] => []
  | part :: rest =>
    if part.isEmpty || (part == ['.'] && (absolute || !rest.isEmpty)) then dropIdle absolute rest
    else part :: rest

def ofParts (absolute : Bool) (parts : List (List Char)) : String :=
  (if absolute then "/" else "") ++ "/".intercalate (parts.map String.ofList)

/-- The directory a path is in; the root and the empty path are in none. -/
def parent? (path : String) : Option String :=
  let absolute := isAbsolute path
  let body := if absolute then path.toList.drop 1 else path.toList
  match dropIdle absolute (Text.parts '/' body).reverse with
  | [] => none
  | _ :: rest => some (ofParts absolute (dropIdle absolute rest).reverse)

/-- The parts of a path that are not passed over. -/
def steps (path : String) : List String :=
  ((Text.parts '/' path.toList).filter fun part => !part.isEmpty && part != ['.']).map String.ofList

/-- What follows the last point of a name that does not begin with it. -/
def extension? (path : String) : Option String :=
  match (steps path).getLast? with
  | none | some ".." => none
  | some name =>
    match (Text.parts '.' name.toList).reverse with
    | ending :: stem :: rest =>
      if stem.isEmpty && rest.isEmpty then none else some (String.ofList ending)
    | _ => none

end ServerProbe.Path
