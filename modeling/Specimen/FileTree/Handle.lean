import Specimen.FileTree.Change

/-!
# Open files

Who has opened a file sees it through a **handle**: the place it was
found at, and how far reading or writing has come. A plain file keeps its
bytes and is gone through from the beginning, a pipe passes bytes on and
has no position, and a directory can be opened but holds no bytes to
read.
-/

namespace Specimen

/-- **What was opened.** -/
structure Handle where
  /-- Where it is. -/
  place : Place
  /-- How many bytes of a plain file are behind. -/
  offset : Nat

namespace Handle

/-- The handle of what a path leads to, at its beginning. -/
def ofPath (t : FileTree) (workingDir : Place) (path : String) : Except SystemFault Handle := do
  let (place, _) ← t.find workingDir path
  pure ⟨place, 0⟩

/-- Changes the pipe that is open, if one is. -/
def changePipe (h : Handle) (op : Pipe → Pipe) (t : FileTree) : FileTree :=
  match t.get? h.place with
  | some (.pipe p) => t.insert h.place (.pipe (op p))
  | _ => t

/-- Closes what was open for reading. -/
def closeReader (h : Handle) (t : FileTree) : FileTree := h.changePipe Pipe.closeReader t

/-- Closes what was open for writing. -/
def closeWriter (h : Handle) (t : FileTree) : FileTree := h.changePipe Pipe.closeWriter t

/-- Whether there is something to see. Only a pipe can keep a reader
waiting. -/
def ready (h : Handle) (t : FileTree) : Bool :=
  match t.get? h.place with
  | some (.pipe p) => p.ready
  | _ => true

/-- **Reads up to `n` bytes.** -/
def read (h : Handle) (n : Nat) (t : FileTree) :
    Except SystemFault (Pipe.Read × Handle × FileTree) :=
  match t.get? h.place with
  | some (.pipe p) =>
    let (result, p) := p.read n
    .ok (result, h, t.insert h.place (.pipe p))
  | some (.file bytes) =>
    let bs := (bytes.drop h.offset).take n
    .ok (.bytes bs, { h with offset := h.offset + bs.length }, t)
  | some .directory => .error .isDirectory
  | _ => .ok (.bytes [], h, t)

/-- **Writes some bytes**, in a plain file over those that are there. -/
def write (h : Handle) (bs : List UInt8) (t : FileTree) :
    Except SystemFault (Handle × FileTree) :=
  match t.get? h.place with
  | some (.pipe p) =>
    if p.readers = 0 ∧ bs ≠ [] then .error .brokenPipe
    else .ok (h, t.insert h.place (.pipe (p.write bs)))
  | some (.file bytes) =>
    let stop := h.offset + bs.length
    .ok ({ h with offset := stop },
      t.insert h.place (.file (bytes.take h.offset ++ bs ++ bytes.drop stop)))
  | _ => .ok (h, t)

/-- What was written to a plain file is read from where writing began. -/
theorem read_of_write {h h' : Handle} {bs bytes : List UInt8} {t t' : FileTree}
    (hf : t.get? h.place = some (.file bytes)) (ho : h.offset ≤ bytes.length)
    (hw : h.write bs t = .ok (h', t')) :
    h.read bs.length t' = .ok (.bytes bs, h', t') := by
  have hp : h.place ≠ [] := fun hp => by simp [hp] at hf
  simp only [write, hf, Except.ok.injEq, Prod.mk.injEq] at hw
  obtain ⟨rfl, rfl⟩ := hw
  simp only [read, FileTree.get?_insert_self hp]
  rw [List.append_assoc, List.drop_append_of_le_length (by simp [ho]),
    List.drop_of_length_le (List.length_take_le h.offset bytes), List.nil_append,
    List.take_left' rfl]

end Handle

end Specimen
