import Specimen.FileTree.Basic

/-!
# Changing a file tree

The operations a run performs on the files of its machine: making
directories and pipes, writing and removing files. Each is refused for
the reasons the system has, and a refused operation changes nothing.
The one exception is `makeDirs`, which makes the directories on the way
one by one and keeps those it made.
-/

namespace Specimen.FileTree

/-- Makes a directory. -/
def makeDir (t : FileTree) (workingDir : Place) (path : String) : Except SystemFault FileTree := do
  match ← t.locate workingDir path with
  | .itself _ => throw .alreadyExists
  | .named dir name _ =>
    match ← t.entry? dir name with
    | some _ => throw .alreadyExists
    | none => pure (t.insert (dir ++ [name]) .directory)

/-- Makes the directories on a way of names from a place, but those that
are there. -/
def makeWay (place : Place) : List String → FileTree → Except SystemFault Unit × FileTree
  | [], t => (.ok (), t)
  | name :: rest, t =>
    match t.step place name with
    | .error e => (.error e, t)
    | .ok next =>
      match t.get? next with
      | some .directory => makeWay next rest t
      | some _ => (.error .alreadyExists, t)
      | none => makeWay next rest (t.insert next .directory)

/-- Makes a directory, unless it is there. -/
def ensureDir (t : FileTree) (workingDir : Place) (path : String) :
    Except SystemFault Unit × FileTree :=
  match t.makeDir workingDir path with
  | .ok t => (.ok (), t)
  | .error e => (if t.isDirectory workingDir path then .ok () else .error e, t)

/-- **Makes a directory and those it is in**, unless they are there. The
way to it is made only if the directory would be nowhere without it. -/
def makeDirs (t : FileTree) (workingDir : Place) (path : String) :
    Except SystemFault Unit × FileTree :=
  if path == "" then (.ok (), t)
  else match t.makeDir workingDir path with
    | .error .notFound =>
      let start := if Path.isAbsolute path then [] else workingDir
      match makeWay start (Path.names path).dropLast t with
      | (.ok (), t) => t.ensureDir workingDir path
      | refused => refused
    | _ => t.ensureDir workingDir path

/-- **Writes a file**, a new one or instead of one that is there. -/
def putFile (t : FileTree) (workingDir : Place) (path : String) (bytes : List UInt8) :
    Except SystemFault FileTree := do
  match ← t.locate workingDir path with
  | .itself _ => throw .isDirectory
  | .named dir name slash =>
    if slash then throw .isDirectory
    match ← t.entry? dir name with
    | some .directory => throw .isDirectory
    | some (.pipe _) => throw .noReader
    | _ => pure (t.insert (dir ++ [name]) (.file bytes))

/-- **Makes an empty file** where nothing is. -/
def newFile (t : FileTree) (workingDir : Place) (path : String) :
    Except SystemFault FileTree := do
  match ← t.locate workingDir path with
  | .itself _ => throw .alreadyExists
  | .named dir name slash =>
    if slash then throw .isDirectory
    match ← t.entry? dir name with
    | some _ => throw .alreadyExists
    | none => pure (t.insert (dir ++ [name]) (.file []))

/-- **Makes a pipe** where nothing is. -/
def makePipe (t : FileTree) (workingDir : Place) (path : String) :
    Except SystemFault FileTree := do
  match ← t.locate workingDir path with
  | .itself _ => throw .alreadyExists
  | .named dir name slash =>
    match ← t.entry? dir name with
    | some _ => throw .alreadyExists
    | none =>
      if slash then throw .notFound
      pure (t.insert (dir ++ [name]) (.pipe .fresh))

/-- **Removes** what is no directory. -/
def remove (t : FileTree) (workingDir : Place) (path : String) : Except SystemFault FileTree := do
  match ← t.locate workingDir path with
  | .itself _ => throw .isDirectory
  | .named dir name slash =>
    match ← t.entry? dir name with
    | none => throw .notFound
    | some .directory => throw .isDirectory
    | some _ =>
      if slash then throw .notDirectory
      pure (t.erase (dir ++ [name]))

/-! ## Pipes -/

/-- The pipe that a path leads to. -/
def pipe? (t : FileTree) (workingDir : Place) (path : String) : Option Pipe :=
  match t.find workingDir path with
  | .ok (_, .pipe p) => some p
  | _ => none

/-- Changes the pipe that a path leads to, if it leads to one. -/
def changePipe (t : FileTree) (workingDir : Place) (path : String) (op : Pipe → Pipe) :
    FileTree :=
  match t.find workingDir path with
  | .ok (place, .pipe p) => t.insert place (.pipe (op p))
  | _ => t

/-- Opens what a path leads to for reading. -/
def openReader (t : FileTree) (workingDir : Place) (path : String) :
    Except SystemFault FileTree := do
  let _ ← t.find workingDir path
  pure (t.changePipe workingDir path Pipe.openReader)

/-- Opens what a path leads to for writing; a pipe needs a reader. -/
def openWriter (t : FileTree) (workingDir : Place) (path : String) :
    Except SystemFault FileTree := do
  match ← t.find workingDir path with
  | (_, .directory) => throw .isDirectory
  | (_, .pipe p) =>
    if p.readers = 0 then throw .noReader
    pure (t.changePipe workingDir path Pipe.openWriter)
  | _ => pure t

end Specimen.FileTree
