import Specimen.Config
import Specimen.Host
import Specimen.Text.Quoted

/-!
# Sources and programs

The source of a run is written into the build directory: always to the
same file when debugging, and otherwise to a file that was not there,
numbered by the process and a counter. The program that the compiler
makes of it stands beside it and has its name without the extension.
-/

namespace Specimen.Run

/-- The path of a numbered source file. -/
def numberedSource (buildDir : String) (processId n : Nat) : String :=
  Path.join buildDir ("qit-" ++ toString processId ++ "-" ++ toString n ++ ".cpp")

/-- Tries to create the next numbered source file; there is no path if
something is there. Every number is used once. -/
def trySource (buildDir : String) : Run (Option String) := do
  let h ← get
  let path := numberedSource buildDir h.processId h.nextSource
  let h := { h with nextSource := h.nextSource + 1 }
  match h.tree.newFile h.here path with
  | .ok t =>
    set { h with tree := t }
    pure (some path)
  | .error fault =>
    set h
    if fault = .alreadyExists then pure none
    else throw (.system ("create source: " ++ path) fault)

/-- Creates the first numbered source file that is not there, looking at
most `fuel` times. -/
def createSource (buildDir : String) : Nat → Run String
  | 0 => do
    let h ← get
    throw (.system ("create source: " ++ numberedSource buildDir h.processId h.nextSource)
      .alreadyExists)
  | fuel + 1 => do
    match ← trySource buildDir with
    | some path => pure path
    | none => createSource buildDir fuel

/-- **Writes a source** into the build directory and gives back its path.
Among as many numbers as there are files and one more, one is free. -/
def writeSource (c : Config) (text : String) : Run String := do
  let h ← get
  match Path.absolute? h.workingDir c.buildDir with
  | none => throw (.system ("resolve build dir: " ++ c.buildDir) .emptyPath)
  | some buildDir =>
    makeDirs buildDir
    let path ←
      if c.debug then pure (Path.join buildDir "debug.cpp")
      else createSource buildDir ((← get).tree.length + 1)
    change ("write source: " ++ path) fun t here => t.putFile here path (utf8Bytes text)
    pure path

/-- **Compiles a source** and gives back the path of the program. -/
def compile (c : Config) (source : String) : Run String := do
  let exe := Path.withoutExtension source
  let (compiler, flags) := c.compilerCommand (← get).surroundings
  let o ← start ("invoke compiler: " ++ quotedBytes compiler)
    ⟨compiler, "-o" :: exe :: source :: flags⟩
  if o.ending.success then pure exe
  else
    throw (.error (.compileFailed (lenientText compiler) o.ending.code source
      (lenientText o.stderr)))

end Specimen.Run
