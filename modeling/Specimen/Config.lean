import Specimen.NameTable
import Specimen.Text.Blank
import Specimen.Text.Utf8

/-!
# Settings of a run

Where generated files go, where functions are found, and which compiler
is called with which flags. Two variables of the surroundings have a
say in the last: `QIT_CXX` names another compiler, and the words of
`QIT_CXX_ARGS` are put behind the flags.
-/

namespace Specimen

/-- **The settings of a run.** -/
structure Config where
  /-- The directory for sources, programs and pipes. -/
  buildDir : String
  /-- The directory that files of functions are relative to. -/
  sourceDir : String
  /-- Whether every run writes the same source file. -/
  debug : Bool
  /-- Whether missing files of functions are created. -/
  autoCreateFiles : Bool
  /-- The compiler. -/
  compiler : String
  /-- The flags the compiler is given. -/
  flags : List String
  /-- How often reports are looked for, in milliseconds. -/
  pollMillis : Nat

namespace Config

/-- The settings if nothing else is said. -/
def standard : Config where
  buildDir := "./build"
  sourceDir := "./src"
  debug := false
  autoCreateFiles := false
  compiler := "c++"
  flags := ["-O3", "-std=c++11", "-march=native"]
  pollMillis := 50

/-- The variable that names another compiler. -/
def compilerVariable : String := "QIT_CXX"

/-- The variable that holds further flags. -/
def flagsVariable : String := "QIT_CXX_ARGS"

/-- The bytes of the compiler's name. An empty variable does not
count. -/
def compilerName (c : Config) (surroundings : NameTable (List UInt8)) : List UInt8 :=
  match NameTable.find? compilerVariable surroundings with
  | some (b :: bs) => b :: bs
  | _ => utf8Bytes c.compiler

/-- The flags of the surroundings. A variable that is no text has
none. -/
def extraFlags (surroundings : NameTable (List UInt8)) : List String :=
  let text := ((NameTable.find? flagsVariable surroundings).bind strictText?).getD ""
  (words text.toList).map String.ofList

/-- **The compiler and its flags** in given surroundings. -/
def compilerCommand (c : Config) (surroundings : NameTable (List UInt8)) :
    List UInt8 × List String :=
  (c.compilerName surroundings, c.flags ++ extraFlags surroundings)

end Config

end Specimen
