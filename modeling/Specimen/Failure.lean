import Specimen.Error
import Specimen.Json.Printer

/-!
# Failures of a run

A run can fail for the reasons an `Error` gives, because its description
is at fault, or because the operating system refuses something. In the
last case the failure says what was attempted.
-/

namespace Specimen

/-- **What is wrong with a run description** that has the right shape. -/
inductive DescriptionFault where
  /-- A number that is held as no integer. -/
  | notInteger (n : Json.Number)
  /-- An integer of more than 32 bits. -/
  | outOfRange (i : Int)
  /-- A document that is neither a number nor an array. -/
  | notValue (j : Json)
  /-- A fault in the document bound to a run argument. -/
  | inArgument (name : String) (fault : DescriptionFault)
  /-- A function with both a file and a body, or with neither. -/
  | functionBody (name : String)

namespace DescriptionFault

/-- The wording of a fault. -/
def message : DescriptionFault → String
  | notInteger n => "expected an integer, got " ++ n.print
  | outOfRange i =>
    toString i ++ " does not fit in a 32-bit int: number too "
      ++ (if i < 0 then "small" else "large") ++ " to fit in target type"
  | notValue j => "expected an integer or an array, got " ++ j.print
  | inArgument name fault => "argument `" ++ name ++ "`: " ++ fault.message
  | functionBody name => "function `" ++ name ++ "` needs exactly one of `file` or `body`"

end DescriptionFault

/-- **What the operating system objects to.** -/
inductive SystemFault where
  /-- Something on the way or at the end of a path does not exist. -/
  | notFound
  /-- A file may not be executed. -/
  | notPermitted
  /-- Something is at a path already. -/
  | alreadyExists
  /-- Something on the way is no directory. -/
  | notDirectory
  /-- A directory is where a file is expected. -/
  | isDirectory
  /-- A name is too long. -/
  | nameTooLong
  /-- An argument or a variable that is too long. -/
  | argumentTooLong
  /-- An operation this system does not have. -/
  | notSupported
  /-- Opening a pipe that nobody reads from. -/
  | noReader
  /-- Writing to a pipe that nobody reads from any more. -/
  | brokenPipe
  /-- A path with a NUL character. -/
  | nulInPath
  /-- A command with a NUL character. -/
  | nulInCommand
  /-- A path with a NUL character, at a byte position. -/
  | nulAt (position : Nat)
  /-- A file that is not text. -/
  | invalidText
  /-- The empty path, which has no absolute spelling. -/
  | emptyPath
deriving DecidableEq

namespace SystemFault

/-- The wording of a fault. -/
def message : SystemFault → String
  | notFound => "No such file or directory (os error 2)"
  | notPermitted => "Permission denied (os error 13)"
  | alreadyExists => "File exists (os error 17)"
  | notDirectory => "Not a directory (os error 20)"
  | isDirectory => "Is a directory (os error 21)"
  | nameTooLong => "File name too long (os error 36)"
  | argumentTooLong => "Argument list too long (os error 7)"
  | notSupported => "Operation not supported (os error 95)"
  | noReader => "No such device or address (os error 6)"
  | brokenPipe => "Broken pipe (os error 32)"
  | nulInPath => "file name contained an unexpected NUL byte"
  | nulInCommand => "nul byte found in provided data"
  | nulAt position => "nul byte found in provided data at position: " ++ toString position
  | invalidText => "stream did not contain valid UTF-8"
  | emptyPath => "cannot make an empty path absolute"

end SystemFault

/-- **Why a run failed.** -/
inductive Failure where
  /-- One of the errors that have a kind of their own. -/
  | error (e : Error)
  /-- A description at fault. -/
  | description (fault : DescriptionFault)
  /-- A description that cannot be read by its shape. -/
  | shape
  /-- A fault of the operating system, with what was attempted. -/
  | system (attempt : String) (fault : SystemFault)

namespace Failure

/-- **The wording of a failure.** -/
def message : Failure → String
  | error e => e.message
  | description fault => fault.message
  | shape => "parse run description: not a run description"
  | system attempt fault => attempt ++ ": " ++ fault.message

end Failure

instance : MonadLift (Except Error) (Except Failure) := ⟨Except.mapError .error⟩

instance : MonadLift (Except DescriptionFault) (Except Failure) := ⟨Except.mapError .description⟩

end Specimen
