import Specimen.CommandLine.Help
import Specimen.Description.Build
import Specimen.Json.Printer
import Specimen.Run.Collect

/-!
# Obeying a command line

What a command line does to a host, what it shows, and the code it ends
with: zero if all went well, a code of its own for each of the errors a
user can do something about, and two for anything else.
-/

namespace Specimen.CommandLine

/-- **What is shown at the end**, and the code to end with. -/
structure Exit where
  /-- The code. -/
  code : Nat
  /-- What is shown. -/
  out : String
  /-- What is shown as a warning. -/
  err : String

/-- The code of a failure. -/
def failureCode : Failure → Nat
  | .error (.missingFiles _ _) => 3
  | .error (.compileFailed _ _ _ _) => 4
  | .error (.programCrashed _ _ _) => 5
  | _ => 2

/-- The text of a description's bytes. -/
def descriptionText (attempt : String) (bytes : List UInt8) : Run String :=
  match strictText? bytes with
  | some text => pure text
  | none => throw (.system attempt .invalidText)

/-- Reads the description of an input; `stdin` is what the standard input
holds. -/
def readDescription (stdin : List UInt8) (input : Input) : Run Description := do
  let text ←
    if input.description == "-" then
      descriptionText "read run description from stdin" stdin
    else
      let attempt := "read run description: " ++ input.description
      let h ← get
      match h.tree.fileBytes h.here input.description with
      | .ok bytes => descriptionText attempt bytes
      | .error fault => throw (.system attempt fault)
  match Description.parse? text with
  | some d => pure d
  | none => throw .shape

/-- The callbacks that hear of every report. -/
def reportEverything : List Report.Callback :=
  Report.Event.all.map fun event => ⟨event, fun _ => false⟩

/-- **Performs a command**, and gives back what it shows. -/
def Command.perform (stdin : List UInt8) : Command → Run String
  | .run input config showReports => do
    let d ← readDescription stdin input
    if showReports then modify fun h => { h with callbacks := reportEverything }
    let t ← Run.ofExcept d.buildTarget
    let args ← Run.ofExcept d.runArgs
    let value ← Run.collect config t args
    pure ((value.elim Json.null Value.toJson).print ++ "\n")
  | .declarations input => do
    let d ← readDescription stdin input
    let t ← Run.ofExcept d.buildTarget
    pure (String.join ((t.declarations (← get).workingDir input.sourceDir).map (· ++ ";\n")))

/-- The lines that show reports. -/
def reportLines (heard : List (Nat × Report.Message)) : String :=
  String.join (heard.map fun m => "[report] " ++ m.2.line ++ "\n")

/-- **Obeys a command line** on a host. -/
def obey (args : List String) (stdin : List UInt8) (h : Host) : Exit × Host :=
  match Request.ofArgs args with
  | .misused => (⟨2, "", misuseText⟩, h)
  | .help topic => (⟨0, helpText topic, ""⟩, h)
  | .command c =>
    let (result, h) := (c.perform stdin).run h
    let reports := reportLines h.heard
    match result with
    | .ok text => (⟨0, text, reports⟩, h)
    | .error e => (⟨failureCode e, "", reports ++ e.message ++ "\n"⟩, h)

end Specimen.CommandLine
