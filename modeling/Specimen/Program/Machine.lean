import Specimen.Program.Code
import Specimen.Schema.Basic

/-!
# The machines of enumerators

In a generated program an enumerator is a **machine**: a struct whose
member `reset` goes back to the start of the sequence, and whose member
`next` writes the next value to `out` and returns true, or returns false
once there is none. The two bodies are given as statements here, and
`Statement.code` writes them down.

A range counts, a list keeps a position, and a single generated value
remembers whether it was given. The machine of a product holds one
machine for each field and turns them like an odometer: it advances the
rightmost one that still has values and starts every later one again.
-/

namespace Specimen.Machine

/-- **The conditions** that machines test. -/
inductive Condition where
  /-- A flag is set. -/
  | flag (name : String)
  /-- A flag is not set. -/
  | notFlag (name : String)
  /-- The counter has reached an integer. -/
  | counterAtLeast (n : Int32)
  /-- The position is behind the last value. -/
  | positionAtEnd
  /-- The machine of a field gives its next value to the field. -/
  | fieldSteps (index : Nat) (field : String)
  /-- The machine of a field has no next value for the field. -/
  | fieldStuck (index : Nat) (field : String)

/-- **The statements** of a machine's members. -/
inductive Statement where
  /-- Sets or clears a flag. -/
  | setFlag (name : String) (value : Bool)
  /-- Starts the counter. -/
  | setCounter (n : Int32)
  /-- Goes back to the first value. -/
  | setPosition
  /-- Moves the counter on. -/
  | advanceCounter
  /-- Moves the position on. -/
  | advancePosition
  /-- Gives out the counter. -/
  | giveCounter
  /-- Gives out the value at the position. -/
  | giveItem
  /-- Gives out the current tuple. -/
  | giveTuple
  /-- Gives out a generated value. -/
  | giveGenerated
  /-- Starts the machine of a field again. -/
  | resetField (index : Nat)
  /-- Returns whether a value was given out. -/
  | return (given : Bool)
  /-- Statements under a condition. -/
  | when (condition : Condition) (body : List Statement)

/-- The text of a truth value. -/
def boolText (b : Bool) : String := if b then "true" else "false"

/-- The name of the member that holds the part of a field. -/
def memberName (index : Nat) : String := "f" ++ toString index

/-- The text of the step of a field's machine. -/
def stepText (index : Nat) (field : String) : String :=
  memberName index ++ ".next(current." ++ field ++ ")"

/-- The text of a condition. -/
def Condition.text : Condition → String
  | flag name => name
  | notFlag name => "!" ++ name
  | counterAtLeast n => "current >= " ++ Value.intLiteral n
  | positionAtEnd => "pos >= values.size()"
  | fieldSteps index field => stepText index field
  | fieldStuck index field => "!" ++ stepText index field

mutual

/-- **The code of a statement.** -/
def Statement.code : Statement → Code
  | .setFlag name value => .line (name ++ " = " ++ boolText value ++ ";")
  | .setCounter n => .line ("current = " ++ Value.intLiteral n ++ ";")
  | .setPosition => .line "pos = 0;"
  | .advanceCounter => .line "current += 1;"
  | .advancePosition => .line "pos += 1;"
  | .giveCounter => .line "out = (int)current;"
  | .giveItem => .line "out = values[pos];"
  | .giveTuple => .line "out = current;"
  | .giveGenerated => .line "gen.generate(out);"
  | .resetField index => .line (memberName index ++ ".reset();")
  | .return given => .line ("return " ++ boolText given ++ ";")
  | .when condition body => .block ("if (" ++ condition.text ++ ")") (codes body) ""

/-- The code of statements. -/
def codes : List Statement → List Code
  | [] => []
  | s :: rest => s.code :: codes rest

end

end Machine

open Machine in
/-- **A machine**: the bodies of its two members. -/
structure Machine where
  /-- What `reset` does. -/
  reset : List Statement
  /-- What `next` does. -/
  next : List Statement

namespace Machine

/-- Ends the enumeration of a product. -/
def finish : List Statement := [.setFlag "finished" true, .return false]

/-- Gives out the current tuple. -/
def give : List Statement := [.giveTuple, .return true]

/-- The machine of a range. -/
def ofRange (r : Range) : Machine where
  reset := [.setCounter r.start]
  next := [.when (.counterAtLeast r.stop) [.return false], .giveCounter, .advanceCounter,
    .return true]

/-- The machine of a list of values. -/
def ofValues : Machine where
  reset := [.setPosition]
  next := [.when .positionAtEnd [.return false], .giveItem, .advancePosition, .return true]

/-- The machine of a single generated value. -/
def ofGenerator : Machine where
  reset := [.setFlag "done" false]
  next := [.when (.flag "done") [.return false], .giveGenerated, .setFlag "done" true,
    .return true]

/-- Takes the first value of each field, with the fields' positions. -/
def firstValues (fields : List (String × Nat)) : List Statement :=
  fields.map fun f => .when (.fieldStuck f.2 f.1) finish

/-- Starts later fields again and takes their first values. -/
def restart (fields : List (String × Nat)) : List Statement :=
  fields.flatMap fun f => [.resetField f.2, .when (.fieldStuck f.2 f.1) finish]

/-- Turns the odometer: the turns of later fields come first. -/
def turns : List (String × Nat) → List Statement
  | [] => []
  | f :: later => turns later ++ [.when (.fieldSteps f.2 f.1) (restart later ++ give)]

/-- The machine of a product with a number of members and the fields
they enumerate. -/
def ofProduct (members : Nat) (fields : List String) : Machine where
  reset := (List.range members).map .resetField
    ++ [.setFlag "started" false, .setFlag "finished" false]
  next := [.when (.flag "finished") [.return false],
      .when (.notFlag "started")
        ([.setFlag "started" true] ++ firstValues fields.zipIdx ++ give)]
    ++ turns fields.zipIdx ++ finish

/-- The code of a machine's members, for a type of values. -/
def code (m : Machine) (element : String) : List Code :=
  [.block "void reset()" (codes m.reset) "",
    .block ("bool next(" ++ element ++ " &out)") (codes m.next) ""]

end Machine

end Specimen
