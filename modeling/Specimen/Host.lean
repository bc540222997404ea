import Specimen.FileTree.Change
import Specimen.NameTable
import Specimen.Process
import Specimen.Report.Listener

/-!
# The host of a run

A run reads and writes files, starts processes and listens to pipes. All
it can see and change of the machine it is on is a **host**, and a run
is a function of it: `Run` threads the host through the steps and keeps
what they did even when one of them fails.

What a process does is not fixed here. The host says for each
**invocation** whether it can be started and, if so, what it has done by
the time it has ended. The host may also refuse a step for a reason that its
files do not show.
-/

namespace Specimen

/-- **What a process has done** by the time it has ended. -/
structure Outcome where
  /-- The files as the process leaves them. -/
  tree : FileTree
  /-- What it wrote to its output. -/
  stdout : List UInt8
  /-- What it wrote to its error output. -/
  stderr : List UInt8
  /-- Its wait status. -/
  status : Int32

/-- How a process ended. -/
def Outcome.ending (o : Outcome) : Ending := Ending.ofStatus o.status

/-- **The two pipes of a program.** -/
inductive Channel where
  /-- The pipe for reports. -/
  | report
  /-- The pipe for the value. -/
  | output
deriving DecidableEq

/-- **The two streams of a program** that are captured. -/
inductive Captured where
  /-- What it writes to its output. -/
  | stdout
  /-- What it writes to its error output. -/
  | stderr
deriving DecidableEq

/-- **A step that a host may refuse** whatever its files are. -/
inductive Step where
  /-- Removing what is where a pipe is to be. -/
  | removeStale (c : Channel)
  /-- Making a pipe. -/
  | makePipe (c : Channel)
  /-- Opening a pipe for reading. -/
  | openReader (c : Channel)
  /-- Opening the output pipe for writing. -/
  | openWriter
  /-- Reading the value, once all bytes of the output pipe are read. -/
  | readValue
  /-- Waiting for the program. -/
  | wait
  /-- Capturing a stream, once all its bytes are read. -/
  | capture (s : Captured)
deriving DecidableEq

/-- **An invocation**: a program and its arguments. -/
structure Invocation where
  /-- The bytes of the program's name. -/
  program : List UInt8
  /-- The arguments. -/
  args : List String
deriving DecidableEq

/-- The fewest bytes that are too many for an argument, and for a variable
with its name and the sign between them. -/
def maxArgument : Nat := 131072

/-- The path of a program, with a NUL for each byte that belongs to no
character. No file has a NUL in its name. -/
def Invocation.path (c : Invocation) : String :=
  String.ofList ((utf8Parts c.program).flatMap fun
    | .char c => [c]
    | .stray bytes => bytes.map fun _ => '\x00')

/-- Refuses a program that is not there or no program. A name without a
slash is looked for in the directories for programs. None of them holds
a program that a run could need, and a name that leads to a directory
from there is of no use. -/
def Invocation.checkProgram (t : FileTree) (workingDir : Place) (c : Invocation) :
    Except SystemFault Unit := do
  FileTree.checkLength c.path
  if c.path == "." || c.path == ".." then throw .notPermitted
  if !c.path.toList.contains '/' then
    FileTree.checkName c.path
    throw .notFound
  match ← t.entryAt (← t.follow workingDir c.path) with
  | (_, .program) => pure ()
  | _ => throw .notPermitted

/-- Whether an argument is too long, or a variable of the surroundings. -/
def Invocation.overlong (surroundings : NameTable (List UInt8)) (c : Invocation) : Bool :=
  (c.args.any fun a => maxArgument ≤ a.utf8ByteSize)
    || surroundings.any fun v => maxArgument ≤ v.1.utf8ByteSize + 1 + v.2.length

/-- **Refuses an invocation that cannot be started** with given
surroundings and files. -/
def Invocation.check (surroundings : NameTable (List UInt8)) (t : FileTree) (workingDir : Place)
    (c : Invocation) : Except SystemFault Unit := do
  if c.program.contains 0 || c.args.any (fun a => a.toList.contains '\x00') then
    throw .nulInCommand
  c.checkProgram t workingDir
  if c.overlong surroundings then throw .argumentTooLong

/-- **A host.** -/
structure Host where
  /-- The files. -/
  tree : FileTree
  /-- The directory that relative paths start from. -/
  workingDir : String
  /-- The variables of the surroundings. -/
  surroundings : NameTable (List UInt8)
  /-- What an invocation does to the files, or why it cannot be
  started. -/
  execute : Invocation → FileTree → Except SystemFault Outcome
  /-- Why a step is refused, if it is. -/
  refuses : Step → Option SystemFault
  /-- The number of the process that performs the run. -/
  processId : Nat
  /-- The number the next source file is tried with. -/
  nextSource : Nat
  /-- Who is told of reports. -/
  callbacks : List Report.Callback
  /-- Who was told of which report. -/
  heard : List (Nat × Report.Message)
  /-- The pipes that are listened to. -/
  listening : List String
  /-- The invocations that were started. -/
  started : List Invocation

/-- The place of the working directory. -/
def Host.here (h : Host) : Place := Path.names h.workingDir

/-- **What a reader sees of some bytes**: behind them is the end, or the
failure that a step is refused with. -/
def Host.stream (h : Host) (step : Step) (bytes : List UInt8) : Stream :=
  match h.refuses step with
  | none => Stream.ofBytes bytes
  | some fault => Stream.ofBytes bytes ++ [.failure fault.message]

/-- **A run**, or a part of one: a function of the host that ends with a
result or a failure, and with the host as it is then. -/
abbrev Run := ExceptT Failure (StateM Host)

namespace Run

/-- A part that does not depend on the host. -/
def ofExcept {α : Type} : Except Failure α → Run α
  | .ok a => pure a
  | .error e => throw e

/-- A part that changes the files, or fails with what was attempted. -/
def change (attempt : String) (op : FileTree → Place → Except SystemFault FileTree) :
    Run Unit := do
  let h ← get
  match op h.tree h.here with
  | .ok t => set { h with tree := t }
  | .error fault => throw (.system attempt fault)

/-- Fails if the host refuses a step. -/
def allowed (attempt : String) (step : Step) : Run Unit := do
  match (← get).refuses step with
  | none => pure ()
  | some fault => throw (.system attempt fault)

/-- **Starts a program and waits for its end.** -/
def start (attempt : String) (c : Invocation) : Run Outcome := do
  let h ← get
  match h.execute c h.tree with
  | .error fault => throw (.system attempt fault)
  | .ok o =>
    set { h with tree := o.tree, started := h.started ++ [c] }
    pure o

/-- **A part with something done behind it**, whether it fails or
not. -/
def ensuring {α : Type} (act : Run α) (after : Host → Host) : Run α := fun h =>
  let (result, h) := act.run h
  (result, after h)

/-- Makes a directory and those it is in. -/
def makeDirs (path : String) : Run Unit := do
  let h ← get
  let (result, t) := h.tree.makeDirs h.here path
  set { h with tree := t }
  match result with
  | .ok () => pure ()
  | .error fault => throw (.system ("create dir: " ++ path) fault)

/-- How many bytes of a text come before its first NUL, if it has
one. -/
def nulPosition? (text : String) : Option Nat :=
  let before := text.toList.takeWhile (· != '\x00')
  if before.length = text.length then none else some (String.ofList before).utf8ByteSize

/-- **Makes a pipe.** -/
def makePipe (path : String) : Run Unit :=
  match nulPosition? path with
  | some n => throw (.system ("fifo path contains NUL: " ++ path) (.nulAt n))
  | none => change ("mkfifo: " ++ path) fun t here => t.makePipe here path

/-- Opens a pipe for reading. -/
def openReader (path : String) : Run Unit :=
  change ("open fifo for reading: " ++ path) fun t here => t.openReader here path

/-- Opens a pipe for writing. -/
def openWriter (path : String) : Run Unit :=
  change ("open fifo for writing: " ++ path) fun t here => t.openWriter here path

end Run

end Specimen
