import Specimen.Description.Term
import Specimen.Description.Value
import Specimen.Json.Reader
import Specimen.Target

/-!
# From descriptions to targets

A description is turned into the objects it describes by the checked
constructors, so it fails as they do. Parts are built before what they
are part of: the values of a list before its type, the arguments of a
call before its function, the types of all fields before the overrides
of any.
-/

namespace Specimen

namespace Description

/-- Where a described function's body is: in a file or given, but not
both. -/
def bodyOf (name : String) (file body : Option String) :
    Except DescriptionFault FunctionBody :=
  match file, body with
  | some file, none => .ok (.external file)
  | none, some text => .ok (.inline text)
  | _, _ => .error (.functionBody name)

mutual

/-- **The type described.** -/
def TypeTerm.build : TypeTerm → Except Failure Ty
  | .int => pure .int
  | .range start stop => Ty.ofRange start stop
  | .values ty items => do
    let values ← Value.ofJsonItems items
    let ty ← ty.build
    Ty.ofValues ty values
  | .product name fields => do
    let types ← buildFieldTypes fields
    let p ← Product.ofFields name types
    .product <$> overrideFields p fields p.names

/-- The names and types of the fields described. -/
def buildFieldTypes : List FieldTerm → Except Failure (List (Option String × Ty))
  | [] => pure []
  | ⟨name, ty, _, _⟩ :: rest => do
    let ty ← ty.build
    let types ← buildFieldTypes rest
    pure ((name, ty) :: types)

/-- A product with the generators and enumerators described for its
fields, whose names are given. -/
def overrideFields (p : Product) : List FieldTerm → List String → Except Failure Product
  | ⟨_, _, generator, enumerator⟩ :: rest, field :: fields => do
    let p ← setGeneratorTerm p field generator
    let p ← setEnumeratorTerm p field enumerator
    overrideFields p rest fields
  | _, _ => pure p

/-- A product with the generator described for a field, if there is
one. -/
def setGeneratorTerm (p : Product) (field : String) :
    Option GeneratorTerm → Except Failure Product
  | none => pure p
  | some g => do p.setGenerator field (← g.build)

/-- A product with the enumerator described for a field, if there is
one. -/
def setEnumeratorTerm (p : Product) (field : String) :
    Option EnumeratorTerm → Except Failure Product
  | none => pure p
  | some e => do p.setEnumerator field (← e.build)

/-- **The generator described.** -/
def GeneratorTerm.build : GeneratorTerm → Except Failure Generator
  | .ofType ty => Ty.generator <$> ty.build
  | .uniform min max => Generator.ofBounds min max
  | .runArgument name ty => do Generator.ofVariable name (← ty.build)
  | .call f args => do
    let args ← buildGenerators args
    let f ← f.build
    f.call args

/-- The generators described. -/
def buildGenerators : List GeneratorTerm → Except Failure (List Generator)
  | [] => pure []
  | g :: rest => do
    let g ← g.build
    let gs ← buildGenerators rest
    pure (g :: gs)

/-- **The enumerator described.** -/
def EnumeratorTerm.build : EnumeratorTerm → Except Failure Enumerator
  | .ofType ty => Ty.enumerator <$> ty.build
  | .once g => .once <$> g.build

/-- **The function described.** -/
def FunctionTerm.build : FunctionTerm → Except Failure Function
  | ⟨name, returns, params, file, body⟩ => do
    let returns ← returns.build
    let f ← Function.ofBody name returns (← bodyOf name file body)
    buildParams f params

/-- A function with the parameters described. -/
def buildParams (f : Function) : List ParamTerm → Except Failure Function
  | [] => pure f
  | ⟨name, ty⟩ :: rest => do
    let ty ← ty.build
    buildParams (← f.addParam name ty) rest

end

/-- **The target described.** -/
def TargetTerm.build : TargetTerm → Except Failure Target
  | .generator g => .generator <$> g.build
  | .enumerator e => .enumerator <$> e.build

/-- The run arguments that documents give. -/
def buildArgs : List Json.Member → Except DescriptionFault RunArgs
  | [] => .ok []
  | m :: rest => do
    let v ← (Value.ofJson m.value).mapError (.inArgument m.name)
    let args ← buildArgs rest
    pure ((m.name, v) :: args)

/-- **Reads a run description** from its text. -/
def parse? (text : String) : Option Description := do
  ofJson? (← Json.parse? Json.maxDepth text)

/-- The target of a run description. -/
def buildTarget (d : Description) : Except Failure Target := d.target.build

/-- The run arguments of a run description. -/
def runArgs (d : Description) : Except Failure RunArgs := buildArgs d.args

end Description

end Specimen
