import Specimen.Run.Compilation
import Specimen.Run.Execution
import Specimen.Run.Functions

/-!
# Collecting a value

The whole way from a target to a value: the files of its functions are
looked for, the source is built and written, the compiler makes a
program of it, and the program is run. The first stage that fails ends
the run.
-/

namespace Specimen.Run

/-- The source of a target's program. -/
def buildSource (c : Config) (t : Target) (args : RunArgs) : Run String := do
  match Program.sourceOf (← get).workingDir c.sourceDir t args with
  | .ok text => pure text
  | .error e => throw (.error e)

/-- **Collects one value of a target.** -/
def collect (c : Config) (t : Target) (args : RunArgs) : Run (Option Value) := do
  checkFunctions c t
  let text ← buildSource c t args
  let source ← writeSource c text
  let exe ← compile c source
  runProgram exe t.elementType

end Specimen.Run
