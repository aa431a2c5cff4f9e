import ServerProbe.CommandLine.Run
/-!
The program. It takes in the files below the current directory, runs the command line on them, and
writes back what has changed.
-/

namespace ServerProbe.Program

open CommandLine (Outcome Surroundings)

def locationOf (path : String) : Location := (Path.steps path).reverse

/-- Variables that servers get, besides those of the settings. -/
def passedOn : List String := ["HOME", "LANG", "PATH", "TMPDIR", "USER", "XDG_CONFIG_HOME"]

def readEnvironment : IO (List (String × String)) :=
  (Settings.overrides.map (fun o => o.name) ++ passedOn).filterMapM fun name => do
    return (← IO.getEnv name).map fun value => (name, value)

/-- Puts a file into the tree, if it can be read. -/
def takeFile (files : FileTree) (path : String) : IO FileTree := do
  try
    let bytes ← IO.FS.readBinFile path
    let l := locationOf path
    return ((files.makeDirectory l.tail).toOption.getD files).put l (some bytes.toList)
  catch _ => return files

/-- Puts in what is below a directory, down to some depth. -/
def takeDirectory : (depth : Nat) → FileTree → String → IO FileTree
  | 0, files, _ => return files
  | depth + 1, files, path => do
    let mut files := (files.makeDirectory (locationOf path)).toOption.getD files
    for entry in ← (← IO.FS.realPath path).readDir do
      if ← entry.path.isDir then files ← takeDirectory depth files entry.path.toString
      else files ← takeFile files entry.path.toString
    return files

def greatestDepth : Nat := 16

/-- The files below the current directory, those named by absolute paths, and the user's settings. -/
def readFiles (userFile : String) (args : List String) : IO FileTree := do
  let here := (← IO.currentDir).toString
  let mut files ← takeDirectory greatestDepth (.fresh (locationOf here)) here
  for path in userFile :: args.filter Path.isAbsolute do
    files ← takeFile files path
  return files

def userFileOf (environment : List (String × String)) : String :=
  let value (name : String) : Option String :=
    (environment.find? fun e => e.1 == name).map Prod.snd
  let directory := (value "XDG_CONFIG_HOME").getD (Path.join ((value "HOME").getD "/") ".config")
  Path.join directory (Path.join CommandLine.programName "config.toml")

/-- Writes every entry that differs from what was there before. -/
def writeChanges (before after : FileTree) : IO Unit := do
  for (l, contents) in after.entries.reverse do
    unless before.find? l == some contents do
      match contents with
      | some bytes => IO.FS.writeBinFile l.render (ByteArray.mk bytes.toArray)
      | none => IO.FS.createDirAll l.render

end ServerProbe.Program

open ServerProbe Program in
def main (args : List String) : IO UInt32 := do
  let environment ← readEnvironment
  let userFile := userFileOf environment
  let files ← readFiles userFile args
  let outcome := CommandLine.run ⟨files, userFile, environment⟩ args
  writeChanges files outcome.files
  (← IO.getStdout).putStr outcome.output
  (← IO.getStderr).putStr outcome.errors
  return outcome.code.toUInt32
