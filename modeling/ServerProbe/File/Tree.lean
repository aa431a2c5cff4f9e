import ServerProbe.File.Path
import ServerProbe.Text.Utf8
/-!
A tree of files as a value: directories, files with their bytes, and the directory that relative
paths start from. Every operation that writes returns the new tree.
-/

namespace ServerProbe

/-- Why a file cannot be read or written. -/
inductive FileFault where
  | absent
  | notADirectory
  | isADirectory
  | alreadyThere
  | nameTooLong
  | nullInName
  | notText
deriving DecidableEq, Repr

def FileFault.message : FileFault → String
  | absent => "No such file or directory (os error 2)"
  | notADirectory => "Not a directory (os error 20)"
  | isADirectory => "Is a directory (os error 21)"
  | alreadyThere => "File exists (os error 17)"
  | nameTooLong => "File name too long (os error 36)"
  | nullInName => "file name contained an unexpected NUL byte"
  | notText => "stream did not contain valid UTF-8"

/-- Where an entry is: the names on the way from the root, the last one first. -/
abbrev Location : Type := List String

def Location.render (l : Location) : String := "/" ++ "/".intercalate l.reverse

/-- The contents of each file, and nothing for a directory. -/
structure FileTree where
  current : Location
  entries : List (Location × Option Bytes)
deriving Repr

namespace FileTree

/-- Every tail of a location, down to the root. -/
def enclosing : Location → List Location
  | [] => [[]]
  | name :: rest => (name :: rest) :: enclosing rest

/-- A tree that holds nothing but the directory relative paths start from. -/
def fresh (current : Location) : FileTree := ⟨current, (enclosing current).map fun l => (l, none)⟩

def find? (t : FileTree) (l : Location) : Option (Option Bytes) :=
  (t.entries.find? fun e => e.1 == l).map Prod.snd

/-- The tree with one entry replaced or added. -/
def put (t : FileTree) (l : Location) (contents : Option Bytes) : FileTree :=
  { t with entries := (l, contents) :: t.entries.filter fun e => e.1 != l }

def isDirectory (t : FileTree) (l : Location) : Bool := t.find? l == some none

/-- Goes on from an existing entry along the parts of a path. What the last name stands for need not
exist. -/
def walk (t : FileTree) : Location → List String → Except FileFault Location
  | here, [] => .ok here
  | here, part :: rest =>
    match t.find? here with
    | none => .error .absent
    | some (some _) => .error .notADirectory
    | some none =>
      if part == "" || part == "." then t.walk here rest
      else if part == ".." then t.walk here.tail rest
      else if 255 < (Utf8.encode part).length then .error .nameTooLong
      else t.walk (part :: here) rest

def locate (t : FileTree) (path : String) : Except FileFault Location :=
  if path.isEmpty then .error .absent
  else if path.toList.any fun c => c.toNat == 0 then .error .nullInName
  else if 4096 ≤ (Utf8.encode path).length then .error .nameTooLong
  else
    let parts := (Text.parts '/' path.toList).map String.ofList
    if Path.isAbsolute path then t.walk [] parts.tail else t.walk t.current parts

/-- The location of an existing entry, as an absolute path without idle parts. -/
def resolve (t : FileTree) (path : String) : Except FileFault String := do
  let l ← t.locate path
  if (t.find? l).isSome then return l.render else throw .absent

def isFile (t : FileTree) (path : String) : Bool :=
  match t.locate path with
  | .ok l => (t.find? l).bind id |>.isSome
  | .error _ => false

def read (t : FileTree) (path : String) : Except FileFault Bytes := do
  match t.find? (← t.locate path) with
  | none => throw .absent
  | some none => throw .isADirectory
  | some (some bytes) => return bytes

def readText (t : FileTree) (path : String) : Except FileFault String := do
  match Utf8.decode? (← t.read path) with
  | some text => return text
  | none => throw .notText

/-- Whether a path says by its end that it names a directory. -/
def namesDirectory (path : String) : Bool := path.toList.getLast? == some '/'

/-- A path without the slashes at its end, except one that it begins with. -/
def withoutLastSlashes (path : String) : String :=
  match path.toList with
  | [] => ""
  | c :: cs => String.ofList (c :: (cs.reverse.dropWhile (· == '/')).reverse)

/-- Replaces the contents of a file, which is made if its directory exists. -/
def write (t : FileTree) (path : String) (bytes : Bytes) : Except FileFault FileTree := do
  let l ← t.locate (withoutLastSlashes path)
  if !t.isDirectory l.tail then
    throw (if (t.find? l.tail).isSome then .notADirectory else .absent)
  else if namesDirectory path || t.isDirectory l then throw .isADirectory
  else return t.put l (some bytes)

/-- The tree with a directory at a location, and directories around it. -/
def makeDirectory (t : FileTree) (l : Location) : Except FileFault FileTree :=
  match l with
  | [] => .ok t
  | name :: rest =>
    match t.find? (name :: rest) with
    | some none => .ok t
    | some (some _) => .error .alreadyThere
    | none => do
      let t ← t.makeDirectory rest
      return t.put (name :: rest) none

/-- Goes on along the parts of a path as `walk` does, and makes each directory that is missing. -/
def makeWay (t : FileTree) : Location → List String → Except FileFault FileTree
  | here, [] =>
    match t.find? here with
    | some (some _) => .error .alreadyThere
    | _ => .ok (t.put here none)
  | here, part :: rest =>
    match t.find? here with
    | some (some _) => .error .notADirectory
    | _ =>
      let t := t.put here none
      if part == "" || part == "." then t.makeWay here rest
      else if part == ".." then t.makeWay here.tail rest
      else if 255 < (Utf8.encode part).length then .error .nameTooLong
      else t.makeWay (part :: here) rest

/-- The tree with the directory that a path names, and the directories around it. -/
def makePath (t : FileTree) (path : String) : Except FileFault FileTree :=
  if path.toList.any fun c => c.toNat == 0 then .error .nullInName
  else if 4096 ≤ (Utf8.encode path).length then .error .nameTooLong
  else
    let parts := (Text.parts '/' path.toList).map String.ofList
    if Path.isAbsolute path then t.makeWay [] parts.tail else t.makeWay t.current parts

/-- What a directory holds, in the order of names. -/
def names (t : FileTree) (l : Location) : List String :=
  (t.entries.filterMap fun e =>
    match e.1 with
    | name :: rest => if rest == l then some name else none
    | [] => none).mergeSort fun a b => decide (a ≤ b)

end FileTree
end ServerProbe
