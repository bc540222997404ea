import Specimen.Run.Compilation
import Specimen.Run.Execution

/-!
# Sharing the build directory

Several runs may create their sources at once: threads of one process,
which count with one counter, and other processes, which have counters of
their own and know nothing of this one but its files. A **call** creates
one source. It takes its number from the counter of its process in one
move and makes the file in another, if nothing is there, and others move
in between.

What is shared is the files and the counters (`Shared`). It is the same
loop that `Run.createSource` goes through for a call that is alone, taken
move by move. A number is a natural number here: counters never come back
to where they started.
-/

namespace Specimen.Run

/-- **How far a call is.** -/
inductive Progress where
  /-- It is about to take a number. -/
  | counting
  /-- It has taken a number and is about to make the file. -/
  | trying (n : Nat)
  /-- It has made the file with a number. -/
  | created (n : Nat)
  /-- It has failed to make the file with a number. -/
  | refused (n : Nat) (fault : SystemFault)
deriving DecidableEq

/-- **A call** that creates a source. -/
structure Call where
  /-- The number of its process. -/
  processId : Nat
  /-- Where relative paths start from. -/
  here : Place
  /-- The build directory. -/
  dir : String
  /-- How far it is. -/
  progress : Progress
deriving DecidableEq

/-- **What a call does in one move.** -/
inductive Turn where
  /-- It takes the next number. -/
  | count
  /-- It makes the file, if nothing is there. -/
  | create
  /-- The system refuses it the file, whatever is there. -/
  | refuse (fault : SystemFault)
deriving DecidableEq

namespace Call

/-- The path of the source with a number. -/
def path (c : Call) (n : Nat) : String := numberedSource c.dir c.processId n

/-- **What a call gives back**, once it has ended. -/
def result? (c : Call) : Option (Except Failure String) :=
  match c.progress with
  | .created n => some (.ok (c.path n))
  | .refused n fault => some (.error (.system ("create source: " ++ c.path n) fault))
  | _ => none

/-- **A turn of a call**, if it can take it, from what the counter of its
process is at and what files there are: how far it is then, and what has
become of both. If something is there already, the call goes on with the
next number. -/
def turn (c : Call) (counter : Nat) (t : FileTree) : Turn → Option (Progress × Nat × FileTree)
  | .count =>
    match c.progress with
    | .counting => some (.trying counter, counter + 1, t)
    | _ => none
  | .create =>
    match c.progress with
    | .trying n =>
      match t.newFile c.here (c.path n) with
      | .ok t' => some (.created n, counter, t')
      | .error fault =>
        some (if fault = .alreadyExists then .counting else .refused n fault, counter, t)
    | _ => none
  | .refuse fault =>
    match c.progress with
    | .trying n => if fault = .alreadyExists then none else some (.refused n fault, counter, t)
    | _ => none

end Call

/-- **What calls share**, and how far each of them is. -/
structure Shared where
  /-- The files. -/
  tree : FileTree
  /-- What the counter of each process is at. -/
  counters : Nat → Nat
  /-- The calls, in the order in which they were made. -/
  calls : List Call

/-- **A move**: a new call, or a turn of a call that was made. -/
inductive Act where
  /-- A thread of a process calls for a source in a build directory. -/
  | call (processId : Nat) (here : Place) (dir : String)
  /-- A call takes a turn. -/
  | turn (i : Nat) (a : Turn)
deriving DecidableEq

/-- Whether a move is a turn of a call. -/
def Act.isTurnOf (i : Nat) : Act → Bool
  | turn j _ => i == j
  | call .. => false

namespace Shared

/-- What is shared before any call is made. -/
def start (t : FileTree) (counters : Nat → Nat) : Shared := ⟨t, counters, []⟩

/-- What is shared when a call has taken a turn. -/
def put (x : Shared) (i : Nat) (c : Call) (after : Progress × Nat × FileTree) : Shared where
  tree := after.2.2
  counters := fun processId => if processId = c.processId then after.2.1 else x.counters processId
  calls := x.calls.set i { c with progress := after.1 }

/-- **What is shared after a move**, if the move can be made. -/
def step (x : Shared) : Act → Option Shared
  | .call processId here dir =>
    some { x with calls := x.calls ++ [⟨processId, here, dir, .counting⟩] }
  | .turn i a => do
    let c ← x.calls[i]?
    let after ← c.turn (x.counters c.processId) x.tree a
    some (x.put i c after)

/-- **What is shared after some moves**, one after another. -/
def run (x : Shared) (moves : List Act) : Option Shared := moves.foldlM step x

end Shared

/-- **The files that belong to a source**: itself, the program that is
compiled from it and the pipes of that program. -/
def artefacts (source : String) : List String :=
  let exe := Path.withoutExtension source
  [source, exe, Channel.report.path exe, Channel.output.path exe]

end Specimen.Run
