import Specimen.Json.Record

/-!
# Run descriptions

A **run description** is a document that says what to produce: a target,
and the run arguments bound to its variables. Read by its shape alone it
is a tree of **terms**, one kind for each kind of object it describes. A
document of any other shape is refused, so everything behind this module
deals with terms only.
-/

namespace Specimen

namespace Description

mutual

/-- **A description of a type.** -/
inductive TypeTerm where
  /-- All integers. -/
  | int
  /-- The integers of a range. -/
  | range (start stop : Int32)
  /-- Listed values of a type. -/
  | values (ty : TypeTerm) (items : List Json)
  /-- A product. -/
  | product (name : Option String) (fields : List FieldTerm)

/-- **A description of a field.** -/
structure FieldTerm where
  /-- The field's name, if it has one. -/
  name : Option String
  /-- The type of its values. -/
  ty : TypeTerm
  /-- The generator that replaces its type's. -/
  generator : Option GeneratorTerm
  /-- The enumerator that replaces its type's. -/
  enumerator : Option EnumeratorTerm

/-- **A description of a generator.** -/
inductive GeneratorTerm where
  /-- The generator of a type. -/
  | ofType (ty : TypeTerm)
  /-- The integers between two bounds. -/
  | uniform (min max : Int32)
  /-- The run argument of a name. -/
  | runArgument (name : String) (ty : TypeTerm)
  /-- A call of a function. -/
  | call (function : FunctionTerm) (args : List GeneratorTerm)

/-- **A description of an enumerator.** -/
inductive EnumeratorTerm where
  /-- The enumerator of a type. -/
  | ofType (ty : TypeTerm)
  /-- A single value of a generator. -/
  | once (g : GeneratorTerm)

/-- **A description of a function.** -/
structure FunctionTerm where
  /-- The function's name. -/
  name : String
  /-- The type it returns. -/
  returns : TypeTerm
  /-- Its parameters. -/
  params : List ParamTerm
  /-- The file with its body. -/
  file : Option String
  /-- Its body. -/
  body : Option String

/-- **A description of a parameter.** -/
structure ParamTerm where
  /-- The parameter's name. -/
  name : String
  /-- The type of its arguments. -/
  ty : TypeTerm

end

/-- **A description of a target.** -/
inductive TargetTerm where
  /-- A value of a generator. -/
  | generator (g : GeneratorTerm)
  /-- The first value of an enumerator. -/
  | enumerator (e : EnumeratorTerm)

/-- Parts read one for one. -/
def partsToTerms {α : Type} {j : Json} (read : Json.Part j → Option α) :
    Option (List (Json.Part j)) → Option (List α)
  | some parts => parts.mapM read
  | none => none

/-! ## Reading terms -/

mutual

/-- Reads a description of a type. -/
def TypeTerm.ofJson? (j : Json) : Option TypeTerm :=
  match j.variant? with
  | some ("int", none) => some .int
  | some ("int", some v) => if v.1.isNull then some .int else none
  | some ("range", some v) => do
    let [some start, some stop] ← v.1.record? ["start", "end"] | none
    some (.range (← start.1.int32?) (← stop.1.int32?))
  | some ("values", some v) => do
    let [some ty, some items] ← v.1.record? ["of", "values"] | none
    let ty ← TypeTerm.ofJson? ty.1
    let items ← items.1.items?
    some (.values ty (items.map fun x => x.1.canonical))
  | some ("product", some v) => do
    let [name, some fields] ← v.1.record? ["name", "fields"] | none
    let name ← Json.optionalText? name
    let fields ← partsToTerms (fun f => FieldTerm.ofJson? f.1) fields.1.items?
    some (.product name fields)
  | _ => none
termination_by sizeOf j
decreasing_by
  all_goals
    have := v.2
  · have := ty.2; omega
  · have := f.2; have := fields.2; omega

/-- Reads a description of a field. -/
def FieldTerm.ofJson? (j : Json) : Option FieldTerm := do
  let [name, some ty, generator, enumerator] ← j.record? ["name", "type", "generator", "iterator"]
    | none
  let name ← Json.optionalText? name
  let ty ← TypeTerm.ofJson? ty.1
  let generator ← match Json.present generator with
    | none => some none
    | some g => (GeneratorTerm.ofJson? g.1).map some
  let enumerator ← match Json.present enumerator with
    | none => some none
    | some e => (EnumeratorTerm.ofJson? e.1).map some
  some ⟨name, ty, generator, enumerator⟩
termination_by sizeOf j
decreasing_by
  · exact ty.2
  · exact e.2
  · exact g.2

/-- Reads a description of a generator. -/
def GeneratorTerm.ofJson? (j : Json) : Option GeneratorTerm :=
  match j.variant? with
  | some ("type", some v) => (TypeTerm.ofJson? v.1).map .ofType
  | some ("uniform", some v) => do
    let [some min, some max] ← v.1.record? ["min", "max"] | none
    some (.uniform (← min.1.int32?) (← max.1.int32?))
  | some ("variable", some v) => do
    let [some name, some ty] ← v.1.record? ["name", "type"] | none
    some (.runArgument (← name.1.text?) (← TypeTerm.ofJson? ty.1))
  | some ("call", some v) => do
    let [some function, args] ← v.1.record? ["function", "args"] | none
    let function ← FunctionTerm.ofJson? function.1
    let args ← match args with
      | none => some []
      | some args => partsToTerms (fun g => GeneratorTerm.ofJson? g.1) args.1.items?
    some (.call function args)
  | _ => none
termination_by sizeOf j
decreasing_by
  all_goals
    have := v.2
  · exact v.2
  · have := ty.2; omega
  · have := function.2; omega
  · have := g.2; have := args.2; omega

/-- Reads a description of an enumerator. -/
def EnumeratorTerm.ofJson? (j : Json) : Option EnumeratorTerm :=
  match j.variant? with
  | some ("type", some v) => (TypeTerm.ofJson? v.1).map .ofType
  | some ("generator", some v) => (GeneratorTerm.ofJson? v.1).map .once
  | _ => none
termination_by sizeOf j
decreasing_by all_goals exact v.2

/-- Reads a description of a function. -/
def FunctionTerm.ofJson? (j : Json) : Option FunctionTerm := do
  let [some name, some returns, params, file, body] ←
    j.record? ["name", "returns", "params", "file", "body"] | none
  let name ← name.1.text?
  let returns ← TypeTerm.ofJson? returns.1
  let params ← match params with
    | none => some []
    | some params => partsToTerms (fun p => ParamTerm.ofJson? p.1) params.1.items?
  let file ← Json.optionalText? file
  let body ← Json.optionalText? body
  some ⟨name, returns, params, file, body⟩
termination_by sizeOf j
decreasing_by
  · exact returns.2
  · have := p.2; have := params.2; omega

/-- Reads a description of a parameter. -/
def ParamTerm.ofJson? (j : Json) : Option ParamTerm := do
  let [some name, some ty] ← j.record? ["name", "type"] | none
  some ⟨← name.1.text?, ← TypeTerm.ofJson? ty.1⟩
termination_by sizeOf j
decreasing_by exact ty.2

end

/-- Reads a description of a target. -/
def TargetTerm.ofJson? (j : Json) : Option TargetTerm :=
  match j.variant? with
  | some ("generator", some v) => (GeneratorTerm.ofJson? v.1).map .generator
  | some ("iterator", some v) => (EnumeratorTerm.ofJson? v.1).map .enumerator
  | _ => none

end Description

open Description in
/-- **A run description**, read by its shape. -/
structure Description where
  /-- What is produced. -/
  target : TargetTerm
  /-- The documents bound to names, sorted by name. -/
  args : List Json.Member

namespace Description

/-- The arguments of a run. A name bound twice has its last document. -/
def args? {j : Json} : Option (Json.Part j) → Option (List Json.Member)
  | none => some []
  | some v =>
    match v.1.canonical with
    | .object members => some members
    | _ => none

/-- **Reads a run description.** -/
def ofJson? (j : Json) : Option Description := do
  let [some target, args] ← j.record? ["target", "args"] | none
  some ⟨← TargetTerm.ofJson? target.1, ← args? args⟩

end Description

end Specimen
