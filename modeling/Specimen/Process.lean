import Specimen.Stream
import Specimen.Text.Utf8

/-!
# Processes

How a process ended is told by its **wait status**, a number that says
whether it exited with a code or was killed by a signal. `Ending.code`
makes one code of both: the exit code itself, or 128 and the signal.
What a process wrote is shown as text, with a mark where it was cut.
-/

namespace Specimen

/-- **How a process ended.** -/
inductive Ending where
  /-- It exited with a code. -/
  | exited (code : Nat)
  /-- A signal killed it. -/
  | killed (signal : Nat)
  /-- It did neither. -/
  | other
deriving DecidableEq

namespace Ending

/-- The ending that a wait status tells. The low seven bits are zero for
an exit and the signal otherwise; all of them set is neither. -/
def ofStatus (raw : Int32) : Ending :=
  let word := raw.toUInt32.toNat
  let low := word % 128
  if low = 0 then exited (word / 256 % 256)
  else if low = 127 then other
  else killed low

/-- **The code of an ending**: zero for success only. -/
def code : Ending → Nat
  | exited c => c
  | killed s => 128 + s
  | other => 1

/-- Whether the process succeeded. -/
def success (e : Ending) : Bool := e == exited 0

end Ending

/-- How many bytes of each of a program's streams are kept. -/
def captureLimit : Nat := 1024 * 1024

/-- The mark where a text was cut. -/
def truncationMark : String := "\n...<truncated>..."

/-- The text of bytes, with the mark if there were more. -/
def shownText (bytes : List UInt8) (truncated : Bool) : String :=
  if truncated then lenientText bytes ++ truncationMark else lenientText bytes

/-- The text of what was kept of a stream. -/
def Stream.Capture.text (c : Stream.Capture) : String := shownText c.bytes c.truncated

end Specimen
