import Specimen.Config
import Specimen.Host
import Specimen.Program.Source

/-!
# Files of functions

The external functions of a target are expected in files. A run begins
by looking for them: if some are **missing** it fails and says which
functions are expected in them, or, if the settings want it, it creates
the files with a **stub** of each function.

Functions are declared here as the program will declare them, so their
heads are read off the program's declarations.
-/

namespace Specimen

/-- **A file of functions**: its path, and the functions expected in
it. -/
structure FunctionFile where
  /-- The absolute path, as it was first spelled. -/
  path : String
  /-- The functions, in the order they are met. -/
  functions : List Function

namespace FunctionFile

/-- Adds a function to the file at a path, among files sorted by
path. -/
def add (path : String) (f : Function) : List FunctionFile → List FunctionFile
  | [] => [⟨path, [f]⟩]
  | g :: rest =>
    if Path.same path g.path then ⟨g.path, g.functions ++ [f]⟩ :: rest
    else if Path.componentsLt (Path.components path) (Path.components g.path) then
      ⟨path, [f]⟩ :: g :: rest
    else g :: add path f rest

end FunctionFile

/-- **The files that a target's functions are expected in**, in the order
of paths. -/
def Target.functionFiles (workingDir sourceDir : String) (t : Target) : List FunctionFile :=
  t.externalFunctions.foldl
    (fun files f =>
      match f.sourcePath? workingDir sourceDir with
      | some path => FunctionFile.add path f files
      | none => files)
    []

/-- The program with the declarations of a target, before it is
completed. -/
def Program.declared (workingDir sourceDir : String) (t : Target) : Program :=
  emitAll t.calls (start workingDir sourceDir)

/-- **The head of each external function of a target.** -/
def Target.declarations (workingDir sourceDir : String) (t : Target) : List String :=
  t.externalFunctions.map (Program.declared workingDir sourceDir t).functionHead

/-- The text of a function that returns an empty value. -/
def Program.stub (s : Program) (f : Function) : String :=
  s.functionHead f ++ " \x7b\n  return \x7b\x7d;\n\x7d\n\n"

/-- The text of a file with a stub of each function. -/
def Program.stubFile (s : Program) (file : FunctionFile) : String :=
  String.join (file.functions.map s.stub)

namespace Run

/-- **The files of functions that are missing.** -/
def missingFiles (c : Config) (t : Target) (h : Host) : List FunctionFile :=
  (t.functionFiles h.workingDir c.sourceDir).filter fun file => !h.tree.isFile h.here file.path

/-- Creates a file of functions, and the directories it is in. -/
def createStubs (s : Program) (file : FunctionFile) : Run Unit := do
  if let some dir := Path.parent? file.path then makeDirs dir
  change ("write stub: " ++ file.path) fun t here =>
    t.putFile here file.path (utf8Bytes (s.stubFile file))

/-- **Looks for the files of a target's functions**, and fails or creates
those that are missing. -/
def checkFunctions (c : Config) (t : Target) : Run Unit := do
  let h ← get
  let missing := missingFiles c t h
  let s := Program.declared h.workingDir c.sourceDir t
  if missing.isEmpty then pure ()
  else if c.autoCreateFiles then missing.forM (createStubs s)
  else
    throw (.error (.missingFiles (missing.map FunctionFile.path)
      (missing.flatMap fun file => file.functions.map s.functionHead)))

end Run

end Specimen
