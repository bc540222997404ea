import Specimen.Pipe
import Specimen.Report.Listener

/-!
# The exchange over a report pipe

Reports go through a pipe to a thread that reads it. Neither side waits
for the other: writers open the pipe, write to it and close it as they
like, the reader sees what is there when it looks, and at some time it
is asked to stop, which is when nothing is written any more. An
**exchange** is all of that at one moment, and a **move** of either side
leads to the next.

The reader goes round in a loop. It looks whether it has been asked to
stop. If not, it waits until there is something to see, but not for
ever. Then it reads until nothing is left, passes on what it reads, and
goes round again, or ends if it had been asked to before it read. What
it calls the subscribers with takes its time, and others move in
between.
-/

namespace Specimen.Report

/-- The most bytes the reader takes at once. -/
def readSize : Nat := 4096

/-- **Where the reader is** in its loop. -/
inductive Stage where
  /-- It is about to look whether it has been asked to stop. -/
  | looking
  /-- It waits for something to see in the pipe. -/
  | waiting
  /-- It reads until nothing is left, and then ends or not. -/
  | reading (last : Bool)
  /-- It is out of the loop. -/
  | done
deriving DecidableEq

/-- **An exchange** at one moment. -/
structure Exchange where
  /-- The pipe, which the reader has open. -/
  pipe : Pipe
  /-- Whether the reader has been asked to stop. -/
  stopped : Bool
  /-- Where the reader is. -/
  stage : Stage
  /-- What the reader has of the line that was begun. -/
  listener : Listener
  /-- The calls that the reader makes before it goes on. -/
  calls : List (Nat × Message)
  /-- How many subscribers there are. -/
  subscribers : Nat
  /-- Who was called with which message. -/
  heard : List (Nat × Message)

/-- **A move** of one side. -/
inductive Move where
  /-- The pipe is opened for writing. -/
  | openWriter
  /-- The pipe is closed for writing. -/
  | closeWriter
  /-- Some bytes are written. -/
  | write (bytes : List UInt8)
  /-- The reader is asked to stop. -/
  | stop
  /-- The reader looks whether it has been asked to stop. -/
  | look
  /-- The reader has waited long enough, or was interrupted. -/
  | giveUp
  /-- The reader sees that there is something to see. -/
  | wake
  /-- The reader reads up to so many bytes. -/
  | read (n : Nat)
  /-- The reader is interrupted while it reads. -/
  | interrupt
  /-- The reader makes a call. -/
  | call
deriving DecidableEq

/-- The bytes that a move writes. -/
def Move.written : Move → List UInt8
  | write bytes => bytes
  | _ => []

namespace Exchange

/-- An exchange once the reader has opened a pipe. -/
def begin (p : Pipe) (subscribers : Nat) : Exchange :=
  ⟨p.openReader, false, .looking, .start, [], subscribers, []⟩

/-- Whether the reader has ended: it is out of the loop and has made all
calls. -/
def Ended (x : Exchange) : Prop := x.stage = .done ∧ x.calls = []

instance (x : Exchange) : Decidable x.Ended := inferInstanceAs (Decidable (_ ∧ _))

/-- The reader goes on with what it has read. -/
def receive (x : Exchange) (bytes : List UInt8) : Exchange :=
  let (messages, l) := x.listener.receive bytes
  { x with listener := l, calls := deliverToAll x.subscribers messages }

/-- The reader goes on when nothing was left: it ends with the line that was
begun, or goes round again. -/
def drain (x : Exchange) (last : Bool) : Exchange :=
  if last then { x with stage := .done, calls := deliverToAll x.subscribers x.listener.stop }
  else { x with stage := .looking }

/-- **The exchange after a move**, if the move can be made. The reader only
goes on once it has made its calls. -/
def step (x : Exchange) : Move → Option Exchange
  | .openWriter => some { x with pipe := x.pipe.openWriter }
  | .closeWriter =>
    if x.pipe.writers = 0 then none else some { x with pipe := x.pipe.closeWriter }
  | .write bytes =>
    if x.stopped ∨ x.pipe.writers = 0 then none else some { x with pipe := x.pipe.write bytes }
  | .stop => some { x with stopped := true }
  | .look =>
    match x.stage, x.calls with
    | .looking, [] => some { x with stage := if x.stopped then .reading true else .waiting }
    | _, _ => none
  | .giveUp =>
    match x.stage, x.calls with
    | .waiting, [] => some { x with stage := .looking }
    | _, _ => none
  | .wake =>
    match x.stage, x.calls with
    | .waiting, [] => if x.pipe.ready then some { x with stage := .reading false } else none
    | _, _ => none
  | .read n =>
    match x.stage, x.calls with
    | .reading last, [] =>
      if n = 0 ∨ readSize < n then none
      else match x.pipe.read n with
        | (.bytes (b :: bs), p) => some ({ x with pipe := p }.receive (b :: bs))
        | _ => some (x.drain last)
    | _, _ => none
  | .interrupt =>
    match x.stage, x.calls with
    | .reading _, [] => some x
    | _, _ => none
  | .call =>
    match x.calls with
    | c :: rest => some { x with calls := rest, heard := x.heard ++ [c] }
    | [] => none

/-- **The exchange after some moves**, one after another. -/
def run (x : Exchange) (moves : List Move) : Option Exchange := moves.foldlM step x

end Exchange

end Specimen.Report
