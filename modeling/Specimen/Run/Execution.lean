import Specimen.Host
import Specimen.Schema.Layout

/-!
# Running a program

A program is given two pipes, one for reports and one for its value,
named after it. They are there only while it runs: `withPipe` makes a
pipe, removing what is in its place, and takes it away again, and
`withListener` listens to the reports in between, however that ends.

A program that does not exit with zero has crashed, whatever it wrote.
Otherwise the run gives the first value in the output pipe.
-/

namespace Specimen

/-- The path of a program's pipe. -/
def Channel.path (exe : String) : Channel → String
  | report => exe ++ "-report"
  | output => exe ++ "-output"

namespace Run

/-- Removes what was left where a pipe is to be. -/
def removeStale (path : String) : Run Unit := do
  let h ← get
  match h.tree.remove h.here path with
  | .ok t => set { h with tree := t }
  | .error .notFound => pure ()
  | .error fault => throw (.system ("remove stale pipe: " ++ path) fault)

/-- The host without what is at a path. -/
def unlink (path : String) (h : Host) : Host :=
  match h.tree.remove h.here path with
  | .ok t => { h with tree := t }
  | .error _ => h

/-- Makes a new pipe in place of what was left there. -/
def renewPipe (exe : String) (c : Channel) : Run Unit := do
  let path := c.path exe
  allowed ("remove stale pipe: " ++ path) (.removeStale c)
  removeStale path
  allowed ("mkfifo: " ++ path) (.makePipe c)
  makePipe path

/-- **A part that has a pipe**, which is gone afterwards. -/
def withPipe {α : Type} (exe : String) (c : Channel) (act : Run α) : Run α := do
  renewPipe exe c
  ensuring act (unlink (c.path exe))

/-- The bytes in a pipe. -/
def pipeBytes (h : Host) (path : String) : List UInt8 :=
  ((h.tree.pipe? h.here path).map Pipe.bytes).getD []

/-- The host once the listener to a pipe has stopped: the callbacks have
been told of every report in it. -/
def stopListening (path : String) (h : Host) : Host :=
  { h with
    heard := h.heard ++ Report.deliver h.callbacks (Report.messages (pipeBytes h path)),
    listening := h.listening.erase path }

/-- **A part whose reports are listened to.** -/
def withListener {α : Type} (exe : String) (act : Run α) : Run α := do
  let path := Channel.report.path exe
  allowed ("open fifo for reading: " ++ path) (.openReader .report)
  openReader path
  modify fun h => { h with listening := path :: h.listening }
  ensuring act (stopListening path)

/-- The text of what was kept of a stream, empty if that failed. -/
def keptText (s : Stream) : String :=
  match Stream.capture captureLimit s with
  | .ok kept => kept.text
  | .error _ => ""

/-- **Waits for a program** and gives its value, unless it has
crashed. -/
def awaitValue (exe : String) (ty : Ty) (o : Outcome) : Run (Option Value) := do
  let h ← get
  let (decoded, _) := ty.read (h.stream .readValue (pipeBytes h (Channel.output.path exe)))
  allowed "wait for program" .wait
  if o.ending.code ≠ 0 then
    throw (.error (.programCrashed o.ending.code (keptText (h.stream (.capture .stdout) o.stdout))
      (keptText (h.stream (.capture .stderr) o.stderr))))
  ofExcept (decoded.mapError .error)

/-- Opens the output pipe, runs the program, and reads its value. -/
def produce (exe : String) (ty : Ty) : Run (Option Value) := do
  let output := Channel.output.path exe
  allowed ("open fifo for reading: " ++ output) (.openReader .output)
  openReader output
  allowed ("open fifo for writing: " ++ output) .openWriter
  openWriter output
  let o ← start ("spawn program: " ++ exe)
    ⟨utf8Bytes exe, [Channel.report.path exe, output]⟩
  awaitValue exe ty o

/-- **Runs a program** and gives its value, if it wrote one. -/
def runProgram (exe : String) (ty : Ty) : Run (Option Value) :=
  withPipe exe .report (withPipe exe .output (withListener exe (produce exe ty)))

end Run

end Specimen
