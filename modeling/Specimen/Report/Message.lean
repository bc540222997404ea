import Specimen.Text.Blank

/-!
# Report messages

While it runs, a program reports what it does in lines: a tag, and
arguments behind it, separated by blanks. Four tags have a meaning; any
other is kept as it is and counts as unknown.
-/

namespace Specimen.Report

/-- **What a report is about.** -/
inductive Event where
  /-- A piece of work begins. -/
  | progressPush
  /-- A piece of work ends. -/
  | progressPop
  /-- A piece of work has come further. -/
  | progressUpdate
  /-- Something went wrong. -/
  | error
  /-- Anything else. -/
  | unknown
deriving DecidableEq

namespace Event

/-- The tag of an event. The unknown event has none of its own. -/
def tag? : Event → Option String
  | progressPush => some "PROGRESS_PUSH"
  | progressPop => some "PROGRESS_POP"
  | progressUpdate => some "PROGRESS_UPDATE"
  | error => some "ERROR"
  | unknown => none

/-- The event of a tag. -/
def ofTag (tag : String) : Event :=
  if tag = "PROGRESS_PUSH" then progressPush
  else if tag = "PROGRESS_POP" then progressPop
  else if tag = "PROGRESS_UPDATE" then progressUpdate
  else if tag = "ERROR" then error
  else unknown

/-- All events. -/
def all : List Event := [progressPush, progressPop, progressUpdate, error, unknown]

theorem ofTag_of_tag? {e : Event} {tag : String} (h : e.tag? = some tag) : ofTag tag = e := by
  cases e <;> simp [tag?] at h <;> subst h <;> rfl

end Event

/-- **A report message.** -/
structure Message where
  /-- What it is about. -/
  event : Event
  /-- The tag, as it was written. -/
  tag : String
  /-- The arguments. -/
  args : List String
deriving DecidableEq

namespace Message

/-- **The message of a line**; a blank line has none. -/
def ofLine? (line : List Char) : Option Message :=
  match words line with
  | [] => none
  | tag :: args =>
    let tag := String.ofList tag
    some ⟨Event.ofTag tag, tag, args.map String.ofList⟩

/-- The line of a message, its parts separated by single spaces. -/
def line (m : Message) : String := m.tag ++ " " ++ " ".intercalate m.args

end Message

end Specimen.Report
