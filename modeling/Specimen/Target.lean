import Specimen.Schema.Checked
import Specimen.Path

/-!
# Targets

A **target** is what a generated program produces: one value of a
generator, or the first of an enumerator's. Before a program is written
for it, one has to know the run arguments it needs, one for each of its
variables, and the functions it calls. Both are listed without
repetition in the order in which they are first met, arguments of a call
before its function.
-/

namespace Specimen

/-- **A target**: what is produced once. -/
inductive Target where
  /-- A value of a generator. -/
  | generator (g : Generator)
  /-- The first value of an enumerator. -/
  | enumerator (e : Enumerator)

/-- **A variable**: a run argument's name, and the type it is used at. -/
structure Variable where
  /-- The name. -/
  name : String
  /-- The type. -/
  ty : Ty

/-- Whether two variables are the same. -/
def Variable.same (x y : Variable) : Bool := x.name == y.name && x.ty.same y.ty

/-- The values bound to the variables of one run. -/
abbrev RunArgs := NameTable Value

/-- Puts an element behind those met before, unless it is the same as one
of them. -/
def addNew {α : Type} (same : α → α → Bool) (met : List α) (a : α) : List α :=
  if met.any (same a) then met else met ++ [a]

/-! ## Variables -/

mutual

/-- The variables met so far, and those of a generator. -/
def Generator.freeVariables (met : List Variable) : Generator → List Variable
  | .uniform _ _ => met
  | .values _ => met
  | .product _ parts => generatorsVariables met parts
  | .call _ args => generatorsVariables met args
  | .runArgument name ty => addNew Variable.same met ⟨name, ty⟩

/-- The variables met so far, and those of generators. -/
def generatorsVariables (met : List Variable) : List Generator → List Variable
  | [] => met
  | g :: rest => generatorsVariables (g.freeVariables met) rest

end

mutual

/-- The variables met so far, and those of an enumerator. -/
def Enumerator.freeVariables (met : List Variable) : Enumerator → List Variable
  | .range _ => met
  | .values _ => met
  | .product _ parts => enumeratorsVariables met parts
  | .once g => g.freeVariables met

/-- The variables met so far, and those of enumerators. -/
def enumeratorsVariables (met : List Variable) : List Enumerator → List Variable
  | [] => met
  | e :: rest => enumeratorsVariables (e.freeVariables met) rest

end

/-! ## Functions -/

mutual

/-- The functions met so far, and those a generator calls. -/
def Generator.functions (met : List Function) : Generator → List Function
  | .uniform _ _ => met
  | .values _ => met
  | .product _ parts => generatorsFunctions met parts
  | .call f args => addNew Function.same (generatorsFunctions met args) f
  | .runArgument _ _ => met

/-- The functions met so far, and those generators call. -/
def generatorsFunctions (met : List Function) : List Generator → List Function
  | [] => met
  | g :: rest => generatorsFunctions (g.functions met) rest

end

mutual

/-- The functions met so far, and those an enumerator calls. -/
def Enumerator.functions (met : List Function) : Enumerator → List Function
  | .range _ => met
  | .values _ => met
  | .product _ parts => enumeratorsFunctions met parts
  | .once g => g.functions met

/-- The functions met so far, and those enumerators call. -/
def enumeratorsFunctions (met : List Function) : List Enumerator → List Function
  | [] => met
  | e :: rest => enumeratorsFunctions (e.functions met) rest

end

/-- The functions a type's own generator and enumerator call. -/
def Ty.functions (t : Ty) : List Function := t.enumerator.functions (t.generator.functions [])

/-- The functions whose body is in a file. -/
def externals (fs : List Function) : List Function := fs.filter Function.isExternal

/-- **The path of an external function's file**, with relative files
below the source directory. -/
def Function.sourcePath? (workingDir sourceDir : String) (f : Function) : Option String :=
  match f.body with
  | .external file => some (Path.absolute workingDir (Path.join sourceDir file))
  | .inline _ => none

/-! ## Targets -/

namespace Target

/-- The type of the value produced. -/
def elementType : Target → Ty
  | generator g => g.outputType
  | enumerator e => e.outputType

/-- **The variables of a target**, in the order they are met. -/
def freeVariables : Target → List Variable
  | generator g => g.freeVariables []
  | enumerator e => e.freeVariables []

/-- **The functions a target calls**, in the order they are met. -/
def functions : Target → List Function
  | generator g => g.functions []
  | enumerator e => e.functions []

/-- **Whether two targets are the same.** -/
def same : Target → Target → Bool
  | generator g, generator h => g.same h
  | enumerator d, enumerator e => d.same e
  | _, _ => false

/-- The functions a target calls whose body is in a file. -/
def externalFunctions (t : Target) : List Function := externals t.functions

end Target

/-- Refuses a variable that is not bound to a value of its type. -/
def Variable.check (args : RunArgs) (x : Variable) : Except Error Unit :=
  match NameTable.find? x.name args with
  | none => .error (.unboundVariable x.name)
  | some value =>
    if x.ty.accepts value then .ok ()
    else .error (.invalidType (.runArgumentMismatch x.name value x.ty.signature))

/-- **Refuses arguments that leave a variable of the target without a
value of its type.** -/
def Target.checkArgs (t : Target) (args : RunArgs) : Except Error Unit :=
  t.freeVariables.forM (Variable.check args)

end Specimen
