import Specimen.Error

/-!
# Byte streams

What a reader sees of a pipe is a **stream**: a script of what happens
to it in order. Bytes arrive in chunks of any size, a read may be
interrupted, may report an end that is followed by more, or may fail;
behind the script is the end for good.

Two readers consume streams. `Stream.readExact` takes a fixed number of
bytes and leaves the rest; `Stream.capture` reads up to the first end
and keeps a bounded part. Neither result depends on the borders between
chunks or on interruptions.
-/

namespace Specimen

/-- **One thing that happens to a stream.** -/
inductive Stream.Event where
  /-- Bytes arrive. -/
  | bytes (bs : List UInt8)
  /-- A read is interrupted and has to be repeated. -/
  | interrupted
  /-- A read reports the end. -/
  | pause
  /-- A read fails, with the failure's text. -/
  | failure (text : String)

/-- **A stream**: what happens to it, in order, before it ends. -/
abbrev Stream := List Stream.Event

namespace Stream

/-- The stream of some bytes. -/
def ofBytes (bs : List UInt8) : Stream := [.bytes bs]

/-- How many bytes are in a stream. -/
def size (s : Stream) : Nat :=
  s.foldl (fun n e => match e with | .bytes bs => n + bs.length | _ => n) 0

/-- How a read of a fixed number of bytes ended. -/
inductive Fill where
  /-- All bytes arrived. -/
  | complete (bs : List UInt8)
  /-- The stream ended after so many bytes. -/
  | ended (got : Nat)
  /-- The stream failed. -/
  | failed (text : String)

/-- Gathers `need` more bytes behind those already `filled`, and gives back the
rest of the stream. -/
def fill (need : Nat) (filled : List UInt8) : Stream → Fill × Stream
  | [] => if need = 0 then (.complete filled, []) else (.ended filled.length, [])
  | e :: rest =>
    if need = 0 then (.complete filled, e :: rest)
    else match e with
      | .bytes bs =>
        match bs.drop need with
        | [] => fill (need - bs.length) (filled ++ bs) rest
        | more => (.complete (filled ++ bs.take need), .bytes more :: rest)
      | .interrupted => fill need filled rest
      | .pause => (.ended filled.length, rest)
      | .failure text => (.failed text, rest)

/-- **Reads exactly `n` bytes.** A stream at its end gives none; one that
ends inside the `n` bytes is an error. -/
def readExact (n : Nat) (s : Stream) : Except Error (Option (List UInt8)) × Stream :=
  match fill n [] s with
  | (.complete [], rest) => (.ok none, rest)
  | (.complete bs, rest) => (.ok (some bs), rest)
  | (.ended 0, rest) => (.ok none, rest)
  | (.ended got, rest) => (.error (.incompleteValue n got), rest)
  | (.failed text, rest) => (.error (.io text), rest)

/-- **What was kept of a stream**, and whether there was more. -/
structure Capture where
  /-- The bytes kept. -/
  bytes : List UInt8
  /-- Whether bytes were dropped. -/
  truncated : Bool

/-- Reads on with room for `room` more bytes; the bytes kept so far are
the latest first. -/
def captureInto (room : Nat) (kept : List UInt8) (truncated : Bool) : Stream → Except Error Capture
  | [] => .ok ⟨kept.reverse, truncated⟩
  | .bytes bs :: rest =>
    if truncated then captureInto room kept true rest
    else if bs.length ≤ room then captureInto (room - bs.length) (bs.reverse ++ kept) false rest
    else captureInto 0 ((bs.take room).reverse ++ kept) true rest
  | .interrupted :: rest => captureInto room kept truncated rest
  | .pause :: _ => .ok ⟨kept.reverse, truncated⟩
  | .failure text :: _ => .error (.io text)

/-- **Reads to the end and keeps the first `cap` bytes.** -/
def capture (cap : Nat) (s : Stream) : Except Error Capture := captureInto cap [] false s

end Stream

end Specimen
