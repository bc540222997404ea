import Specimen.CommandLine.Session

/-!
# The program

The command line as a program of its own. The parts of the machine that
a command can ask about are read into a host, the command is obeyed on
the host, and what it changed there is written back. Processes are not
started from here, so a run ends with the invocation of the compiler:
the stubs and the source are in their places by then, and the message
says what was to be invoked.
-/

namespace Specimen

/-- The path of a place. -/
def placePath (place : Place) : String := "/" ++ "/".intercalate place

/-- What is at a place of the machine. -/
def lookAt (place : Place) : IO (Option Entry) := do
  let path := placePath place
  let file : IO.FS.DirEntry := ⟨path, ""⟩
  try
    match (← file.root.metadata).type with
    | .dir => pure (some .directory)
    | .file => pure (some (.file (← IO.FS.readBinFile path).toList))
    | _ => pure none
  catch _ => pure none

/-- Reads what is at a place into a file tree. -/
def loadPlace (t : FileTree) (place : Place) : IO FileTree := do
  match ← lookAt place with
  | some e => pure (t.insert place e)
  | none => pure t

/-- Reads what is on the way of a path, and at its end, into a file
tree. -/
def loadPath (workingDir : String) (t : FileTree) (path : String) : IO FileTree := do
  let names := Path.names (Path.absolute workingDir path)
  let (_, t) ← names.foldlM (fun ((place, t) : Place × FileTree) name => do
    if name == ".." then pure (place.dropLast, t)
    else
      let place := place ++ [name]
      pure (place, ← loadPlace t place)) ([], t)
  pure t

/-- Reads which names a directory holds into a file tree; what the files
hold does not matter. -/
def loadNames (t : FileTree) (path : String) : IO FileTree := do
  let dir : IO.FS.DirEntry := ⟨path, ""⟩
  try
    let files ← dir.root.readDir
    pure (files.foldl
      (fun t file => t.insert (Path.names (Path.join path file.fileName)) (.file [])) t)
  catch _ => pure t

/-- The variables that a run looks at. -/
def loadVariables : IO (NameTable (List UInt8)) := do
  let entries ← [Config.compilerVariable, Config.flagsVariable].filterMapM fun name => do
    pure ((← IO.getEnv name).map fun v => (name, utf8Bytes v))
  pure (NameTable.ofList entries)

/-- The input of a command. -/
def inputOf : CommandLine.Command → CommandLine.Input
  | .run input _ _ => input
  | .declarations input => input

/-- The host with the files that a command can ask about. -/
def loadHost (stdin : List UInt8) (h : Host) (c : CommandLine.Command) : IO Host := do
  let input := inputOf c
  let t ← loadPath h.workingDir h.tree input.description
  let h := { h with tree := t }
  let target := do (← CommandLine.readDescription stdin input |>.run h |>.1).buildTarget
  let files := match target with
    | .ok t => (t.functionFiles h.workingDir input.sourceDir).map FunctionFile.path
    | .error _ => []
  let t ← files.foldlM (loadPath h.workingDir) h.tree
  match c with
  | .run _ config _ =>
    let buildDir := Path.absolute h.workingDir config.buildDir
    pure { h with tree := ← loadNames (← loadPath h.workingDir t buildDir) buildDir }
  | .declarations _ => pure { h with tree := t }

/-- Writes back what was changed. -/
def saveTree (before after : FileTree) : IO Unit := do
  for (place, e) in after.listing do
    if before.get? place ≠ some e then
      match e with
      | .directory => IO.FS.createDir (placePath place)
      | .file bytes => IO.FS.writeBinFile (placePath place) ⟨bytes.toArray⟩
      | _ => pure ()
  for (place, _) in before.listing do
    if after.get? place = none then IO.FS.removeFile (placePath place)

/-- Obeys a command line on the machine. -/
def obeyHere (args : List String) : IO UInt32 := do
  let workingDir := (← IO.FS.realPath ".").toString
  let self := (← IO.FS.realPath "/proc/self").toString
  let bare : Host :=
    { tree := []
      workingDir
      surroundings := ← loadVariables
      execute := fun _ _ => .error .notSupported
      refuses := fun _ => none
      processId := (((Path.names self).getLast?).bind String.toNat?).getD 0
      nextSource := 0
      callbacks := []
      heard := []
      listening := []
      started := [] }
  let (stdin, h) ← match CommandLine.Request.ofArgs args with
    | .command c => do
      let stdin ←
        if (inputOf c).description == "-" then (·.toList) <$> IO.FS.readBinFile "/dev/stdin"
        else pure []
      pure (stdin, ← loadHost stdin bare c)
    | _ => pure ([], bare)
  let (exit, after) := CommandLine.obey args stdin h
  saveTree h.tree after.tree
  IO.print exit.out
  IO.eprint exit.err
  pure (UInt32.ofNat exit.code)

end Specimen

/-- The program. -/
def main (args : List String) : IO UInt32 := Specimen.obeyHere args
