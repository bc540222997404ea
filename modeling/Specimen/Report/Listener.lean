import Specimen.Report.Message
import Specimen.Text.Cut
import Specimen.Text.Utf8

/-!
# Listening to reports

A **listener** takes the bytes of a report stream as they come, cuts
them into lines, and passes on the message of each line. Lines are cut
before they are decoded, so where a read happens to end does not matter.
When the listener stops, a line that was begun counts as one.

Messages are **delivered** to whoever asked for them. A subscriber gets
every message, a callback those of its event; several get a message in
the order they were registered, and all of them before the next one.
-/

namespace Specimen.Report

/-- The byte that ends a line. -/
def isLineEnd (b : UInt8) : Bool := b == 0x0a

/-- The messages of some lines. -/
def messagesOf (lines : List (List UInt8)) : List Message :=
  lines.filterMap fun line => Message.ofLine? (lenientChars line)

/-- **A listener**: the bytes of the line that was begun. -/
structure Listener where
  /-- The bytes since the last line's end. -/
  pending : List UInt8

namespace Listener

/-- A listener that has heard nothing. -/
def start : Listener := ⟨[]⟩

/-- **Takes some bytes**: the messages of the lines they complete, and
the listener with the line they begin. -/
def receive (l : Listener) (bytes : List UInt8) : List Message × Listener :=
  let pieces := cut isLineEnd (l.pending ++ bytes)
  (messagesOf pieces.dropLast, ⟨pieces.getLast?.getD []⟩)

/-- **Stops**: the message of the line that was begun. -/
def stop (l : Listener) : List Message := messagesOf [l.pending]

/-- The messages of chunks that come one after another, up to the
stop. -/
def hear (l : Listener) : List (List UInt8) → List Message
  | [] => l.stop
  | chunk :: rest =>
    let (messages, l) := l.receive chunk
    messages ++ hear l rest

end Listener

/-- **The messages of a report stream**, read as a whole. -/
def messages (bytes : List UInt8) : List Message := messagesOf (cut isLineEnd bytes)

/-! ## Delivery -/

/-- Every message to each of some subscribers, who are numbered. -/
def deliverToAll (subscribers : Nat) (ms : List Message) : List (Nat × Message) :=
  ms.flatMap fun m => (List.range subscribers).map fun i => (i, m)

/-- **A callback**: the event it is for, and the messages it breaks down
on. -/
structure Callback where
  /-- The event it is called for. -/
  event : Event
  /-- Whether it breaks down on a message, which is its last then. -/
  breaksOn : Message → Bool

/-- Delivers a message to callbacks, the first of which has a given
number: who was called, and whether one broke down. -/
def deliverFrom (first : Nat) (m : Message) : List Callback → List (Nat × Message) × Bool
  | [] => ([], false)
  | c :: rest =>
    if c.event = m.event then
      if c.breaksOn m then ([(first, m)], true)
      else
        let (calls, broken) := deliverFrom (first + 1) m rest
        ((first, m) :: calls, broken)
    else deliverFrom (first + 1) m rest

/-- **Delivers messages to callbacks.** Once one has broken down the
messages that are left are lost. -/
def deliver (callbacks : List Callback) : List Message → List (Nat × Message)
  | [] => []
  | m :: rest =>
    let (calls, broken) := deliverFrom 0 m callbacks
    calls ++ (if broken then [] else deliver callbacks rest)

end Specimen.Report
