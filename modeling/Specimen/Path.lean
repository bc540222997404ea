import Specimen.Text.Cut

/-!
# Paths

A path is a text in which slashes separate components. Two spellings of
a path are the same path when they have the same **components**: doubled
slashes, a slash at the end and `.` inside do not count, and `..` is
kept because only a file system can resolve it. Tables of paths are
ordered by components as well, so that a directory comes before the
paths below it.
-/

namespace Specimen.Path

/-- **A component** of a path. -/
inductive Component where
  /-- The slash an absolute path begins with. -/
  | root
  /-- A `.` at the beginning of a relative path. -/
  | current
  /-- A `..`. -/
  | parent
  /-- A name. -/
  | normal (name : String)
deriving DecidableEq

/-- The place of a kind of component in the order. -/
def Component.rank : Component → Nat
  | root => 0
  | current => 1
  | parent => 2
  | normal _ => 3

/-- The order of components: by kind, then by name. -/
def Component.lt (a b : Component) : Bool :=
  match a, b with
  | normal m, normal n => m < n
  | a, b => a.rank < b.rank

/-- Whether a path begins with a slash. -/
def isAbsolute (path : String) : Bool := path.toList.head? == some '/'

/-- Whether a path ends with a slash. -/
def endsWithSlash (path : String) : Bool := path.toList.getLast? == some '/'

/-- The text between the slashes of a path. -/
def pieces (path : String) : List String :=
  (cut (· == '/') path.toList).map String.ofList

/-- The pieces that name something: not empty and not `.`. -/
def names (path : String) : List String := (pieces path).filter fun s => s != "" && s != "."

/-- The component of a piece. -/
def Component.ofName (name : String) : Component := if name == ".." then .parent else .normal name

/-- **The components of a path.** -/
def components (path : String) : List Component :=
  let body := (names path).map Component.ofName
  if isAbsolute path then .root :: body
  else if (pieces path).head? == some "." then .current :: body
  else body

/-- The order of lists of components. -/
def componentsLt : List Component → List Component → Bool
  | [], [] => false
  | [], _ :: _ => true
  | _ :: _, [] => false
  | a :: as, b :: bs => a.lt b || (a == b && componentsLt as bs)

/-- Whether two texts spell the same path. -/
def same (p q : String) : Bool := components p == components q

/-- The text of a component. -/
def Component.text : Component → String
  | root => "/"
  | current => "."
  | parent => ".."
  | normal name => name

/-- The shortest text with given components. -/
def spell : List Component → String
  | .root :: rest => "/" ++ "/".intercalate (rest.map Component.text)
  | cs => "/".intercalate (cs.map Component.text)

/-- **The shortest spelling of a path**: all spellings of one path share
it. -/
def shortest (path : String) : String := spell (components path)

theorem shortest_eq_of_same {p q : String} (h : same p q = true) : shortest p = shortest q :=
  congrArg spell (eq_of_beq h)

example : shortest "//a/.//b/" = "/a/b" ∧ shortest "./a/." = "./a" := by decide +kernel

/-- A path below a directory; an absolute one does not depend on it. -/
def join (dir path : String) : String :=
  if isAbsolute path then path
  else if dir == "" || endsWithSlash dir then dir ++ path
  else dir ++ "/" ++ path

/-- A text with a slash at its end. -/
def withSlash (path : String) : String := if endsWithSlash path then path else path ++ "/"

/-- The slashes that make a path absolute: two of them stay two, more
count as one, and a relative path has none. -/
def rootText (path : String) : String :=
  match path.toList with
  | '/' :: '/' :: '/' :: _ => "/"
  | '/' :: '/' :: _ => "//"
  | '/' :: _ => "/"
  | _ => ""

/-- **The absolute spelling of a path** in a working directory. Names and
`..` are kept, and so is a slash at the end. The empty path has none. -/
def absolute? (workingDir path : String) : Option String :=
  if path == "" then none
  else
    let start := if isAbsolute path then rootText path else workingDir
    let body := (names path).foldl join start
    some (if endsWithSlash path then withSlash body else body)

/-- The absolute spelling, or the path itself if it is empty. -/
def absolute (workingDir path : String) : String := (absolute? workingDir path).getD path

/-- The directory a path's last component is in. -/
def parent? (path : String) : Option String :=
  match names path with
  | [] => none
  | [_] => some (if isAbsolute path then "/" else "")
  | ns => some (ns.dropLast.foldl join (rootText path))

/-- A file name without its extension: what comes before the last dot,
unless nothing does. -/
def stem (name : String) : String :=
  let chars := name.toList
  let extension := chars.reverse.takeWhile (· != '.')
  let rest := chars.take (chars.length - extension.length - 1)
  if name == ".." || extension.length == chars.length || rest.isEmpty then name
  else String.ofList rest

/-- **A path with the extension of its last name cut off**, together with
what follows that name. A path that ends in a name such as `..a` keeps
both dots: without the `a` it has no name left to cut. -/
def withoutExtension (path : String) : String :=
  match (names path).getLast? with
  | none => path
  | some name =>
    if name == ".." then path
    else
      let chars := path.toList
      let trailing := trailingLength chars.reverse
      let dir := String.ofList (chars.take (chars.length - trailing - name.length))
      if trailing == 0 && stem name == "." then dir ++ ".." else dir ++ stem name
where
  /-- How many characters of a reversed path come before the name at its
  end: slashes, and dots between slashes. -/
  trailingLength : List Char → Nat
    | '/' :: rest => 1 + trailingLength rest
    | '.' :: '/' :: rest => 2 + trailingLength rest
    | _ => 0

end Specimen.Path
