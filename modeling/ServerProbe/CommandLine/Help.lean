import ServerProbe.CommandLine.Arguments
/-!
The texts of the command line's help.
-/

namespace ServerProbe.CommandLine

def programName : String := "lsprobe"

def versionText : String := programName ++ " 0.1.0\n"

/-- A paragraph of help: a title and what is listed under it. -/
structure Section where
  title : String
  entries : List (String × String)

/-- Entries with their explanations beside them, all at one column. -/
def beside (s : Section) : String :=
  let width := (s.entries.map fun e => e.1.length).foldl max 0
  let entry (e : String × String) : String :=
    "  " ++ e.1 ++ "".pushn ' ' (width - e.1.length) ++ "  " ++ e.2 ++ "\n"
  s.title ++ ":\n" ++ String.join (s.entries.map entry)

/-- Entries with their explanations on lines of their own. -/
def below (s : Section) : String :=
  s.title ++ ":\n" ++ String.join (s.entries.map fun e => "  " ++ e.1 ++ "\n          " ++ e.2 ++ "\n")

def configEntry : String × String :=
  ("    --config <CONFIG>", "Config file (default: ./lsprobe.toml, then the user config dir)")

def laterEntries : List (String × String) :=
  [("    --log-file <LOG_FILE>", "Write logs here instead of stderr"),
    ("    --server-command <SERVER_COMMAND>", "Server command line, split on whitespace"),
    ("-h, --help", "Print help")]

def serverEntry : String × String := ("[SERVER]...", "Server command and arguments")

def replaySummary : String := "Replay fixtures; exit 1 if any step fails"

def inspectSummary : String := "Initialize, print the server's capabilities as JSON, shut down"

def helpSummary : String := "Print this message or the help of the given subcommand(s)"

/-- A summary, how the command is used, and paragraphs, with an empty line between them. -/
def page (summary usage : String) (paragraphs : List String) : String :=
  "\n".intercalate
    ((summary ++ "\n") :: ("Usage: " ++ programName ++ " " ++ usage ++ "\n") :: paragraphs)

def Topic.text : Topic → String
  | program =>
    page "Replay recorded LSP fixtures against a language server" "[OPTIONS] <COMMAND>"
      [beside ⟨"Commands", [("replay", replaySummary), ("inspect", inspectSummary),
          ("help", helpSummary)]⟩,
        below ⟨"Options", configEntry :: laterEntries ++ [("-V, --version", "Print version")]⟩]
  | replay =>
    page replaySummary "replay [OPTIONS] <FIXTURES>... [-- <SERVER>...]"
      [beside ⟨"Arguments", [("<FIXTURES>...", "Fixture files"), serverEntry]⟩,
        below ⟨"Options", configEntry
          :: ("    --workspace <WORKSPACE>", "Workspace root, overriding the fixtures' own")
          :: laterEntries⟩]
  | inspect =>
    page inspectSummary "inspect [OPTIONS] [-- <SERVER>...]"
      [beside ⟨"Arguments", [serverEntry]⟩,
        below ⟨"Options", configEntry :: ("    --root <ROOT>", "Workspace root sent as `rootUri`")
          :: laterEntries⟩]
  | help =>
    page helpSummary "help [COMMAND]..."
      [beside ⟨"Arguments", [("[COMMAND]...", "Print help for the subcommand(s)")]⟩]

end ServerProbe.CommandLine
