/-!
# Pipes

A **pipe** passes bytes from writers to a reader in order. Reading from
an empty pipe tells two cases apart: while somebody has it open for
writing, bytes may still come, and otherwise it is at its end. Reading
no bytes at all never has to wait. A reader can also ask whether there
is something to see: bytes, or a writer that has gone. A pipe nobody
has written to yet is at its end as well, but that is not something to
see.

A pipe holds bytes only as long as somebody has it open, for reading or
for writing. Once all have closed it, it is as good as new.
-/

namespace Specimen

/-- **A pipe**, as its reader sees it. -/
structure Pipe where
  /-- The bytes written and not read. -/
  bytes : List UInt8
  /-- How many have it open for reading. -/
  readers : Nat
  /-- How many have it open for writing. -/
  writers : Nat
  /-- Whether somebody has had it open for writing since the reader
  opened it. -/
  written : Bool
deriving DecidableEq

namespace Pipe

/-- A pipe just made. -/
def fresh : Pipe := ⟨[], 0, 0, false⟩

/-- Forgets all if nobody has it open. -/
def settle (p : Pipe) : Pipe := if p.readers = 0 ∧ p.writers = 0 then fresh else p

/-- Opens it for reading. What writers did before does not count, unless
they are still there. -/
def openReader (p : Pipe) : Pipe :=
  { p with readers := p.readers + 1, written := p.writers != 0 }

/-- Closes it for reading. -/
def closeReader (p : Pipe) : Pipe := settle { p with readers := p.readers - 1 }

/-- Opens it for writing. -/
def openWriter (p : Pipe) : Pipe := { p with writers := p.writers + 1, written := true }

/-- Closes it for writing. -/
def closeWriter (p : Pipe) : Pipe := settle { p with writers := p.writers - 1 }

/-- Writes some bytes. -/
def write (p : Pipe) (bs : List UInt8) : Pipe := { p with bytes := p.bytes ++ bs }

/-- Whether there are bytes, or all writers have gone. -/
def ready (p : Pipe) : Bool := !p.bytes.isEmpty || (p.writers == 0 && p.written)

/-- **What a read gives.** -/
inductive Read where
  /-- Some bytes; none at the end. -/
  | bytes (bs : List UInt8)
  /-- Nothing yet. -/
  | wouldBlock
deriving DecidableEq

/-- Reads up to `n` bytes. -/
def read (p : Pipe) (n : Nat) : Read × Pipe :=
  if n = 0 then (.bytes [], p)
  else if p.bytes.isEmpty then
    if p.writers == 0 then (.bytes [], p) else (.wouldBlock, p)
  else (.bytes (p.bytes.take n), { p with bytes := p.bytes.drop n })

theorem bytes_closeWriter {p : Pipe} (h : p.readers ≠ 0) : p.closeWriter.bytes = p.bytes := by
  simp [closeWriter, settle, h]

theorem settle_of_closed {p : Pipe} (hr : p.readers = 0) (hw : p.writers = 0) :
    p.settle = fresh := by
  simp [settle, hr, hw]

/-- Bytes come out in the order they went in. -/
theorem bytes_of_read {p : Pipe} {n : Nat} {bs : List UInt8} {q : Pipe}
    (h : p.read n = (.bytes bs, q)) : bs ++ q.bytes = p.bytes := by
  unfold read at h
  split at h
  · simp only [Prod.mk.injEq, Read.bytes.injEq] at h
    obtain ⟨rfl, rfl⟩ := h
    simp
  split at h
  · next hp =>
    have hp : p.bytes = [] := by simpa using hp
    split at h
    · simp only [Prod.mk.injEq, Read.bytes.injEq] at h
      obtain ⟨rfl, rfl⟩ := h
      simp
    · simp at h
  · simp only [Prod.mk.injEq, Read.bytes.injEq] at h
    obtain ⟨rfl, rfl⟩ := h
    simp

end Pipe

end Specimen
