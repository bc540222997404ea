import Specimen.Text.Quoted
import Specimen.Value

/-!
# Errors

Every operation on descriptions, streams and runs fails with an `Error`
that says what is at fault; its wording is given in one place,
`Error.message`. The faults of a type, a generator or an argument are
told apart by `TypeFault`.
-/

namespace Specimen

/-- **What makes a type, a generator or an argument unusable.** -/
inductive TypeFault where
  /-- A range without elements. -/
  | emptyRange (start stop : Int32)
  /-- A list of values without values. -/
  | noValues
  /-- A listed value that is not of the listed type. -/
  | valueMismatch (value : Value) (signature : String)
  /-- A lower bound above the upper. -/
  | boundsOutOfOrder (min max : Int32)
  /-- A call with more or fewer arguments than parameters. -/
  | argumentCount (function : String) (expected got : Nat)
  /-- A call with an argument of another layout than its parameter. -/
  | argumentMismatch (function param expected got : String)
  /-- An override of another layout than its field. -/
  | fieldMismatch (product field expected got : String)
  /-- A run argument that is not of its variable's type. -/
  | runArgumentMismatch (name : String) (value : Value) (signature : String)
  /-- A fault known by its text alone. -/
  | stated (text : String)
deriving DecidableEq

namespace TypeFault

/-- The wording of a fault. -/
def message : TypeFault → String
  | emptyRange start stop =>
    "empty range [" ++ toString start.toInt ++ ", " ++ toString stop.toInt ++ ")"
  | noValues => "values list is empty"
  | valueMismatch value signature =>
    "value " ++ value.display ++ " does not match type " ++ signature
  | boundsOutOfOrder min max =>
    "uniform int bounds out of order: " ++ toString min.toInt ++ " > " ++ toString max.toInt
  | argumentCount function expected got =>
    function ++ " takes " ++ toString expected ++ " argument(s), got " ++ toString got
  | argumentMismatch function param expected got =>
    "argument `" ++ param ++ "` of " ++ function ++ " expects " ++ expected ++ ", got " ++ got
  | fieldMismatch product field expected got =>
    "field `" ++ field ++ "` of " ++ product ++ " expects " ++ expected ++ ", got " ++ got
  | runArgumentMismatch name value signature =>
    "run argument `" ++ name ++ "` = " ++ value.display ++ " does not match " ++ signature
  | stated text => text

end TypeFault

/-- **What went wrong.** -/
inductive Error where
  /-- A name that is no identifier. -/
  | invalidName (name : String)
  /-- A field name used before. -/
  | duplicateField (product field : String)
  /-- A field the product does not have. -/
  | unknownField (product field : String)
  /-- A type, generator or argument at fault. -/
  | invalidType (fault : TypeFault)
  /-- A variable without a run argument. -/
  | unboundVariable (name : String)
  /-- A stream that ended inside a value. -/
  | incompleteValue (expected got : Nat)
  /-- A stream that ended between two fields. -/
  | incompleteProduct (product : String) (read total : Nat)
  /-- A stream that failed, with the failure's text. -/
  | io (text : String)
  /-- Files that external functions need and that do not exist. -/
  | missingFiles (filenames declarations : List String)
  /-- A compiler that did not succeed. -/
  | compileFailed (compiler : String) (exitStatus : Int) (sourcePath stderr : String)
  /-- A program that did not exit with zero. -/
  | programCrashed (exitStatus : Int) (stdout stderr : String)
deriving DecidableEq

namespace Error

/-- **The wording of an error.** -/
def message : Error → String
  | invalidName name =>
    "invalid name " ++ quoted name ++ ": expected an identifier ([A-Za-z_][A-Za-z0-9_]*)"
  | duplicateField product field =>
    "duplicate field `" ++ field ++ "` in product " ++ product
  | unknownField product field => "unknown field `" ++ field ++ "` in product " ++ product
  | invalidType fault => "invalid type: " ++ fault.message
  | unboundVariable name => "variable `" ++ name ++ "` has no run argument"
  | incompleteValue expected got =>
    "incomplete value: expected " ++ toString expected ++ " bytes, got " ++ toString got
  | incompleteProduct product read total =>
    "incomplete product " ++ product ++ ": stream ended after " ++ toString read ++ " of "
      ++ toString total ++ " fields"
  | io text => text
  | missingFiles filenames declarations =>
    "file(s) " ++ ",".intercalate filenames
      ++ " are required because of the following function(s):\n "
      ++ ",".intercalate declarations
  | compileFailed compiler exitStatus sourcePath stderr =>
    "compiler " ++ compiler ++ " failed (exit=" ++ toString exitStatus ++ ") on " ++ sourcePath
      ++ ":\n" ++ stderr
  | programCrashed exitStatus stdout stderr =>
    "program crashed (exit=" ++ toString exitStatus ++ ")\n--- stdout ---\n" ++ stdout
      ++ "\n--- stderr ---\n" ++ stderr

end Error

end Specimen
