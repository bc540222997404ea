import Specimen.Failure
import Specimen.Path
import Specimen.Pipe

/-!
# File trees

The files of a machine are a table from **places** to what is there. A
place is the list of names that lead to it from the root, so it has one
spelling, where a path may have many. The root is a directory and is
not in the table.

The table is sorted by depth first: places of different depth are told
apart without a look at their names, however long a chain of directories
is. Three laws say all there is to know of it: what was put somewhere is
there, what was removed is gone, and other places are not touched.

A path is followed name by name, and every place on the way has to be a
directory. That is what tells `a/../b` from `b`: the first is nowhere
unless `a` is a directory.
-/

namespace Specimen

/-- **What is at a place.** -/
inductive Entry where
  /-- A directory. -/
  | directory
  /-- A plain file with its bytes. -/
  | file (bytes : List UInt8)
  /-- A pipe. -/
  | pipe (p : Pipe)
  /-- A file that can be executed. -/
  | program
deriving DecidableEq

/-- **A place**: the names that lead to it from the root. -/
abbrev Place := List String

/-- What a place is found by in a table: its depth, then its names. -/
abbrev Place.Key := Nat × Place

/-- The key of a place. -/
def Place.key (place : Place) : Place.Key := (List.length place, place)

/-- Whether a key comes before another: less deep, or before it by its
names. -/
def Place.Key.before (a b : Place.Key) : Bool := a.1 < b.1 || (a.1 == b.1 && decide (a.2 < b.2))

theorem Place.key_inj {a b : Place} : a.key = b.key ↔ a = b :=
  ⟨fun h => congrArg Prod.snd h, congrArg Place.key⟩

/-- **A file tree**: what is at which place, sorted by the keys of
places. -/
abbrev FileTree := List (Place.Key × Entry)

namespace FileTree

/-- What is at a place. -/
def get? (place : Place) (t : FileTree) : Option Entry :=
  if place = [] then some .directory else t.lookup place.key

/-- Puts something under a key, instead of what is there. -/
def put (key : Place.Key) (e : Entry) : FileTree → FileTree
  | [] => [(key, e)]
  | (k, f) :: rest =>
    if key = k then (key, e) :: rest
    else if key.before k then (key, e) :: (k, f) :: rest
    else (k, f) :: put key e rest

/-- Puts something at a place, instead of what is there. -/
def insert (place : Place) (e : Entry) (t : FileTree) : FileTree := t.put place.key e

/-- Removes what is under a key. -/
def without (key : Place.Key) (t : FileTree) : FileTree := t.filter fun e => e.1 ≠ key

/-- Removes what is at a place. -/
def erase (place : Place) (t : FileTree) : FileTree := t.without place.key

/-- **What is where**, sorted by name: a directory comes before what is
in it. -/
def listing (t : FileTree) : List (Place × Entry) :=
  (t.map fun e => (e.1.2, e.2)).mergeSort fun a b => !decide (b.1 < a.1)

/-- Whether a place is a directory. -/
def isDirectoryAt (t : FileTree) (place : Place) : Bool := t.get? place == some .directory

/-! ## Following paths -/

/-- The most bytes a name may have. -/
def maxName : Nat := 255

/-- The fewest bytes that are too many for a path. -/
def maxPath : Nat := 4096

/-- Refuses a place that nothing can be below. -/
def checkDirectory (t : FileTree) (place : Place) : Except SystemFault Unit :=
  match t.get? place with
  | some .directory => .ok ()
  | some _ => .error .notDirectory
  | none => .error .notFound

/-- Refuses a name that is too long. -/
def checkName (name : String) : Except SystemFault Unit :=
  if maxName < name.utf8ByteSize then .error .nameTooLong else .ok ()

/-- Follows one name from a place. -/
def step (t : FileTree) (place : Place) (name : String) : Except SystemFault Place := do
  t.checkDirectory place
  if name == "." then pure place
  else if name == ".." then pure place.dropLast
  else
    checkName name
    pure (place ++ [name])

/-- **Where a path leads**: to a place itself, or to a name in a
directory, with a slash behind the name or without. -/
inductive Location where
  /-- A place that is there. -/
  | itself (place : Place)
  /-- A name in a directory. -/
  | named (dir : Place) (name : String) (slash : Bool)

/-- Refuses the empty path, and one that is too long. -/
def checkLength (path : String) : Except SystemFault Unit :=
  if path == "" then .error .notFound
  else if maxPath ≤ path.utf8ByteSize then .error .nameTooLong
  else .ok ()

/-- Refuses what is no path at all. -/
def checkPath (path : String) : Except SystemFault Unit :=
  if path.toList.contains '\x00' then .error .nulInPath else checkLength path

/-- **Follows a path** from a working directory up to its last name. -/
def follow (t : FileTree) (workingDir : Place) (path : String) : Except SystemFault Location := do
  let start := if Path.isAbsolute path then [] else workingDir
  let names := (Path.pieces path).filter (· != "")
  match names.getLast? with
  | none => pure (.itself [])
  | some last =>
    let dir ← names.dropLast.foldlM (step t) start
    t.checkDirectory dir
    if last == "." then pure (.itself dir)
    else if last == ".." then pure (.itself dir.dropLast)
    else pure (.named dir last (Path.endsWithSlash path))

/-- Follows a path, unless it is none. -/
def locate (t : FileTree) (workingDir : Place) (path : String) : Except SystemFault Location := do
  checkPath path
  t.follow workingDir path

/-- What is at a name in a directory. -/
def entry? (t : FileTree) (dir : Place) (name : String) : Except SystemFault (Option Entry) := do
  checkName name
  pure (t.get? (dir ++ [name]))

/-- What is at a location, with its place. A slash behind the name asks
for a directory. -/
def entryAt (t : FileTree) : Location → Except SystemFault (Place × Entry)
  | .itself place =>
    match t.get? place with
    | some e => pure (place, e)
    | none => throw .notFound
  | .named dir name slash => do
    match ← t.entry? dir name with
    | some .directory => pure (dir ++ [name], .directory)
    | some e => if slash then throw .notDirectory else pure (dir ++ [name], e)
    | none => throw .notFound

/-- **What a path leads to**, with its place. -/
def find (t : FileTree) (workingDir : Place) (path : String) :
    Except SystemFault (Place × Entry) := do
  t.entryAt (← t.locate workingDir path)

/-- Whether a path leads to a directory. -/
def isDirectory (t : FileTree) (workingDir : Place) (path : String) : Bool :=
  match t.find workingDir path with
  | .ok (_, .directory) => true
  | _ => false

/-- **Whether a path leads to a file.** -/
def isFile (t : FileTree) (workingDir : Place) (path : String) : Bool :=
  match t.find workingDir path with
  | .ok (_, .file _) => true
  | .ok (_, .program) => true
  | _ => false

/-- The bytes of the file a path leads to. -/
def fileBytes (t : FileTree) (workingDir : Place) (path : String) :
    Except SystemFault (List UInt8) := do
  match ← t.find workingDir path with
  | (_, .file bytes) => pure bytes
  | (_, .directory) => throw .isDirectory
  | (_, .program) => throw .invalidText
  | (_, .pipe p) => pure p.bytes

/-! ## What is where after a change -/

@[simp] theorem get?_root (t : FileTree) : t.get? [] = some .directory := rfl

/-- What was just put under a key is found there. -/
theorem lookup_put_self (key : Place.Key) (e : Entry) (t : FileTree) :
    (t.put key e).lookup key = some e := by
  induction t with
  | nil => simp [put]
  | cons f rest ih =>
    obtain ⟨k, f⟩ := f
    unfold put
    split
    · simp
    · next hk =>
      have hk : (key == k) = false := by simpa using hk
      split
      · simp
      · simpa [List.lookup_cons, hk] using ih

/-- Other keys are not touched. -/
theorem lookup_put_of_ne {key other : Place.Key} (h : other ≠ key) (e : Entry) (t : FileTree) :
    (t.put key e).lookup other = t.lookup other := by
  have ho : (other == key) = false := by simpa using h
  induction t with
  | nil => simp [put, List.lookup_cons, ho]
  | cons f rest ih =>
    obtain ⟨k, f⟩ := f
    unfold put
    split
    · next hk => subst hk; simp [List.lookup_cons, ho]
    · split
      · simp [List.lookup_cons, ho]
      · simp [List.lookup_cons, ih]

/-- Nothing is left under a key that was removed. -/
theorem lookup_without_self (key : Place.Key) (t : FileTree) : (t.without key).lookup key = none := by
  simp only [without, List.lookup_eq_none_iff, List.mem_filter, decide_eq_true_eq, bne_iff_ne]
  exact fun e he => he.2.symm

/-- Removing a key leaves other keys alone. -/
theorem lookup_without_of_ne {key other : Place.Key} (h : other ≠ key) (t : FileTree) :
    (t.without key).lookup other = t.lookup other := by
  unfold without
  induction t with
  | nil => rfl
  | cons f rest ih =>
    obtain ⟨k, f⟩ := f
    by_cases hk : k = key
    · have ho : (other == k) = false := by simpa [hk] using h
      rw [List.filter_cons_of_neg (by simp [hk]), List.lookup_cons, ho]
      exact ih
    · rw [List.filter_cons_of_pos (by simpa using hk), List.lookup_cons, List.lookup_cons, ih]

theorem get?_insert_self {place : Place} (h : place ≠ []) (e : Entry) (t : FileTree) :
    (t.insert place e).get? place = some e := by
  rw [get?, if_neg h]
  exact lookup_put_self place.key e t

theorem get?_insert_of_ne {place other : Place} (h : other ≠ place) (e : Entry) (t : FileTree) :
    (t.insert place e).get? other = t.get? other := by
  unfold get?
  split
  · rfl
  · exact lookup_put_of_ne (mt Place.key_inj.1 h) e t

theorem get?_erase_self {place : Place} (h : place ≠ []) (t : FileTree) :
    (t.erase place).get? place = none := by
  rw [get?, if_neg h]
  exact lookup_without_self place.key t

theorem get?_erase_of_ne {place other : Place} (h : other ≠ place) (t : FileTree) :
    (t.erase place).get? other = t.get? other := by
  unfold get?
  split
  · rfl
  · exact lookup_without_of_ne (mt Place.key_inj.1 h) t

end FileTree

end Specimen
