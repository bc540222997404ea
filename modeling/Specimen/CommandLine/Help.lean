import Specimen.CommandLine.Options

/-!
# Help

The texts that explain the command line. Names and options are aligned:
what is said about them begins in one column.
-/

namespace Specimen.CommandLine

/-- **A table of two columns**, two blanks between them. -/
def table (rows : List (String × String)) : String :=
  let width := rows.foldl (fun w r => max w r.1.length) 0
  String.join (rows.map fun r =>
    r.1 ++ String.ofList (List.replicate (width + 2 - r.1.length) ' ') ++ r.2 ++ "\n")

/-- The row for the option that asks for help. -/
def helpRow : String × String := ("  -h, --help", "Print help")

/-- The rows for the options of every command. -/
def inputRows : List (String × String) :=
  [("      --target <TARGET>", "JSON run description; `-` reads stdin"),
    ("      --source-dir <SOURCE_DIR>", "[default: ./src]")]

/-- The rows for the options of the command that collects a value. -/
def runRows : List (String × String) :=
  inputRows ++
    [("      --build-dir <BUILD_DIR>", "[default: ./build]"),
      ("      --debug", "Always write the program to `<build-dir>/debug.cpp`"),
      ("      --auto-create-files", "Write stubs for missing external function files"),
      ("      --compiler <COMPILER>", ""),
      ("      --cxx-flag <CXX_FLAGS>", "Replaces the default compiler flags"),
      ("      --poll-interval-ms <POLL_INTERVAL_MS>", "[default: 50]"),
      ("      --show-reports", "Echo report messages to stderr")]

/-- What each command is for. -/
def about : Topic → String
  | .program => "Generate, compile and run C++ programs for typed targets."
  | .run => "Run a target and print the collected value as JSON"
  | .declarations => "Print the declarations of the external functions a target needs"
  | .help => "Print this message or the help of the given subcommand(s)"

/-- How each command is written. -/
def usage : Topic → String
  | .program => "Usage: qit <COMMAND>"
  | .run => "Usage: qit run [OPTIONS] --target <TARGET>"
  | .declarations => "Usage: qit declarations [OPTIONS] --target <TARGET>"
  | .help => "Usage: qit help [COMMAND]..."

/-- The rows for the commands. -/
def commandRows : List (String × String) :=
  [("  run", about .run), ("  declarations", about .declarations), ("  help", about .help)]

/-- **The text of help on a topic.** -/
def helpText (topic : Topic) : String :=
  about topic ++ "\n\n" ++ usage topic ++ "\n\n" ++
    match topic with
    | .program => "Commands:\n" ++ table commandRows ++ "\nOptions:\n" ++ table [helpRow]
    | .run => "Options:\n" ++ table (runRows ++ [helpRow])
    | .declarations => "Options:\n" ++ table (inputRows ++ [helpRow])
    | .help => "Arguments:\n" ++ table [("  [COMMAND]...", "Print help for the subcommand(s)")]

/-- The text for a command line that is misused. -/
def misuseText : String :=
  "error: the command line is not understood\n\n" ++ usage .program
    ++ "\n\nFor more information, try '--help'.\n"

end Specimen.CommandLine
