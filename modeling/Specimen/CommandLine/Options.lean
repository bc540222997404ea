import Specimen.Config
import Specimen.Json.Basic

/-!
# Command lines

A command line names a command and gives it options. An option is
written `--name value` or `--name=value`, a flag is a bare `--name`, and
nothing may be given twice that is not a list. What does not have this
form is **misused**, and the first thing from the left that is wrong, or
that asks for help, decides.
-/

namespace Specimen.CommandLine

/-- **What an option takes.** -/
inductive Takes where
  /-- Nothing. -/
  | nothing
  /-- A value, once. -/
  | value
  /-- A value each time; the value may look like an option. -/
  | values
deriving DecidableEq

/-- **An option** that a command knows. -/
structure Rule where
  /-- Its name. -/
  name : String
  /-- What it takes. -/
  takes : Takes
  /-- Whether it takes a given value. -/
  accepts : String → Bool

/-- An option with any value but the empty one. -/
def Rule.path (name : String) : Rule := ⟨name, .value, fun v => v != ""⟩

/-- An option with any value. -/
def Rule.text (name : String) : Rule := ⟨name, .value, fun _ => true⟩

/-- An option without a value. -/
def Rule.flag (name : String) : Rule := ⟨name, .nothing, fun _ => true⟩

/-- The options that were given, the latest first. -/
abbrev Given := List (String × String)

/-- **How reading a command line ends.** -/
inductive Reading (α : Type) where
  /-- It is understood. -/
  | understood (a : α)
  /-- It asks for help. -/
  | help
  /-- It is misused. -/
  | misused

/-- Whether a text is written like an option. -/
def looksLikeOption (text : String) : Bool :=
  match text.toList with
  | '-' :: _ :: _ => true
  | _ => false

/-- The name and the value of a long option, from what is behind its
dashes. -/
def splitOption (body : List Char) : String × Option String :=
  let name := body.takeWhile (· != '=')
  match body.drop name.length with
  | [] => (String.ofList name, none)
  | _ :: value => (String.ofList name, some (String.ofList value))

/-- Takes note of an option, unless it was given before or does not take
the value. -/
def note (rule : Rule) (value : String) (given : Given) : Option Given :=
  if rule.takes ≠ .values ∧ given.any (·.1 == rule.name) then none
  else if rule.accepts value then some ((rule.name, value) :: given)
  else none

/-- **Reads the options** behind those given so far. -/
def readOptions (rules : List Rule) (given : Given) : List String → Reading Given
  | [] => .understood given
  | arg :: rest =>
    match arg.toList with
    | '-' :: '-' :: [] => if rest.isEmpty then .understood given else .misused
    | '-' :: '-' :: body =>
      let (name, value) := splitOption body
      if name == "help" && value.isNone then .help
      else match rules.find? (·.name == name) with
        | none => .misused
        | some rule =>
          match rule.takes, value with
          | .nothing, some _ => .misused
          | .nothing, none =>
            match note rule "" given with
            | some given => readOptions rules given rest
            | none => .misused
          | _, some value =>
            match note rule value given with
            | some given => readOptions rules given rest
            | none => .misused
          | takes, none =>
            match rest with
            | [] => .misused
            | value :: rest =>
              if takes ≠ .values && looksLikeOption value then .misused
              else match note rule value given with
                | some given => readOptions rules given rest
                | none => .misused
    | '-' :: 'h' :: _ => .help
    | _ => .misused

/-! ## Commands -/

/-- **Where a description is read from**, and where its functions
are. -/
structure Input where
  /-- The path of the description; a dash is the standard input. -/
  description : String
  /-- The directory with the files of functions. -/
  sourceDir : String

/-- **A command.** -/
inductive Command where
  /-- Collects a value under given settings, and shows reports if
  asked to. -/
  | run (input : Input) (config : Config) (showReports : Bool)
  /-- Shows the heads of external functions. -/
  | declarations (input : Input)

/-- **A topic of help.** -/
inductive Topic where
  /-- The program. -/
  | program
  /-- Collecting a value. -/
  | run
  /-- Showing declarations. -/
  | declarations
  /-- Help itself. -/
  | help

/-- The options of every command. -/
def inputRules : List Rule := [.path "target", .path "source-dir"]

/-- The number of a text of digits, a plus sign before them allowed, if it
has 64 bits at most. -/
def word64? (text : String) : Option Nat :=
  let digits := match text.toList with
    | '+' :: rest => rest
    | chars => chars
  if digits.isEmpty || !digits.all Char.isDigit then none
  else
    let n := digits.foldl (fun n c => 10 * n + (c.toNat - '0'.toNat)) 0
    if n < Json.wordCount then some n else none

/-- The options of the command that collects a value. -/
def runRules : List Rule :=
  inputRules ++
    [.path "build-dir", .flag "debug", .flag "auto-create-files", .text "compiler",
      ⟨"cxx-flag", .values, fun _ => true⟩,
      ⟨"poll-interval-ms", .value, fun v => (word64? v).isSome⟩, .flag "show-reports"]

/-- The input among given options, if there is one. -/
def inputOf (given : Given) : Option Input :=
  (given.lookup "target").map fun description =>
    ⟨description, (given.lookup "source-dir").getD Config.standard.sourceDir⟩

/-- The settings among given options. -/
def configOf (input : Input) (given : Given) : Config :=
  let flags := (given.filter (·.1 == "cxx-flag")).reverse.map Prod.snd
  let standard := Config.standard
  { buildDir := (given.lookup "build-dir").getD standard.buildDir
    sourceDir := input.sourceDir
    debug := (given.lookup "debug").isSome
    autoCreateFiles := (given.lookup "auto-create-files").isSome
    compiler := (given.lookup "compiler").getD standard.compiler
    flags := if flags.isEmpty then standard.flags else flags
    pollMillis := ((given.lookup "poll-interval-ms").bind word64?).getD standard.pollMillis }

/-- **What a command line asks for.** -/
inductive Request where
  /-- A command. -/
  | command (c : Command)
  /-- Help. -/
  | help (topic : Topic)
  /-- Nothing: it is misused. -/
  | misused

/-- Makes a command of what was read, which has to name an input. -/
def requestOf (topic : Topic) (make : Input → Given → Command) : Reading Given → Request
  | .help => .help topic
  | .misused => .misused
  | .understood given =>
    match inputOf given with
    | some input => .command (make input given)
    | none => .misused

/-- **Reads a command line.** -/
def Request.ofArgs : List String → Request
  | "run" :: rest =>
    requestOf .run
      (fun input given =>
        .run input (configOf input given) (given.lookup "show-reports").isSome)
      (readOptions runRules [] rest)
  | "declarations" :: rest =>
    requestOf .declarations (fun input _ => .declarations input) (readOptions inputRules [] rest)
  | ["help"] => .help .program
  | ["help", "run"] => .help .run
  | ["help", "declarations"] => .help .declarations
  | ["help", "help"] => .help .help
  | args =>
    match readOptions [] [] args with
    | .help => .help .program
    | _ => .misused

end Specimen.CommandLine
