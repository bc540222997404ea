import Specimen.Declaration.Size
import Specimen.Program.Block

/-!
# Writing declarations

A **program** in the making is a list of declarations, in the order they
were written. Each has the key it was declared under, the name that
others mention it by, and its code, which is written on the program's
sheet. Declaring a node whose key was visited changes nothing; otherwise
the key is marked, whatever the node's text mentions is declared first,
and the node is written (`Program.emit`). So there is a time when a key
is visited and has no declaration yet, and everything relies on nobody
asking for its name before it has one.

Names come from two sources. A product's class takes the product's own
name, with a number behind it if that name is used; everything without
a name of its own is numbered by a counter.
-/

namespace Specimen

/-- **A declaration** of a program. -/
structure Declaration where
  /-- The key it was declared under. -/
  key : Node.Key
  /-- The name it is mentioned by. -/
  handle : String
  /-- Its code. -/
  code : List Code

/-- **A program in the making.** -/
structure Program where
  /-- The directory that relative paths start from. -/
  workingDir : String
  /-- The directory with the files of external functions. -/
  sourceDir : String
  /-- The run arguments that variables declared from now on are given. -/
  args : RunArgs
  /-- The keys of the nodes whose declaration has begun. -/
  visited : List Node.Key
  /-- The declarations, in order. -/
  declarations : List Declaration
  /-- What is written of them. -/
  sheet : Sheet
  /-- The names that classes may not take. -/
  usedNames : List String
  /-- The number the next nameless declaration gets. -/
  nextId : Nat

namespace Program

/-- The program without declarations. -/
def start (workingDir sourceDir : String) : Program :=
  ⟨workingDir, sourceDir, [], [], [], .blank, ["main"], 0⟩

/-! ## Names -/

/-- Whether the declaration of a key has begun. -/
def visits (s : Program) (k : Node.Key) : Bool := s.visited.any k.same

/-- The declaration of a key. -/
def find? (s : Program) (k : Node.Key) : Option Declaration :=
  s.declarations.find? fun d => d.key.same k

/-- Whether a key is declared. -/
def declares (s : Program) (k : Node.Key) : Bool := (s.find? k).isSome

/-- **The name of what a key was declared as.** -/
def handle (s : Program) (k : Node.Key) : String := ((s.find? k).map Declaration.handle).getD ""

/-- The name of a type. -/
def typeName (s : Program) (t : Ty) : String :=
  match t.basicProduct? with
  | none => "int"
  | some p => s.handle (.layout p.signature)

/-- The name of a generator's struct. -/
def generatorName (s : Program) (g : Generator) : String := s.handle (.generator g)

/-- The name of an enumerator's struct. -/
def enumeratorName (s : Program) (e : Enumerator) : String := s.handle (.enumerator e)

/-- A number of its own, and the program that has used it. -/
def freshId (s : Program) : Nat × Program := (s.nextId, { s with nextId := s.nextId + 1 })

/-- A base name with a number behind it. -/
def numbered (base : String) (n : Nat) : String := base ++ "_" ++ toString n

/-- The first name from `base_n` on that is not used, looked for at most
`fuel` times. -/
def freeName (used : List String) (base : String) (n : Nat) : Nat → String
  | 0 => numbered base n
  | fuel + 1 =>
    if numbered base n ∈ used then freeName used base (n + 1) fuel else numbered base n

/-- **The name of a class**: the base itself or, if that is used, the
first of `base_1`, `base_2`, … that is not. Among as many candidates as
there are used names and one more, one is free. -/
def className (used : List String) (base : String) : String :=
  if base ∈ used then freeName used base 1 used.length else base

/-- Takes a name for the class of a product. A nameless product's base
name is numbered. -/
def reserveClass (s : Program) (p : Product) : String × Program :=
  let (base, s) := match p.name with
    | some name => (name, s)
    | none =>
      let (id, s) := s.freshId
      ("qit_Product" ++ toString id, s)
  let name := className s.usedNames base
  (name, { s with usedNames := s.usedNames ++ [name] })

/-- Takes a numbered name. -/
def reserveNumbered (s : Program) (base : String) : String × Program :=
  let (id, s) := s.freshId
  (base ++ toString id, s)

/-! ## Code -/

/-- The head of a function. -/
def functionHead (s : Program) (f : Function) : String :=
  Block.functionHead (s.typeName f.returns) f.name
    (f.params.map fun p => (p.name, s.typeName p.ty))

/-- The expression for a run argument: its literal, or the empty value
of its type if it is not bound. -/
def argumentExpression (s : Program) (name : String) (ty : Ty) : String :=
  match NameTable.find? name s.args with
  | none => s.typeName ty ++ "()"
  | some (.int n) => Value.intLiteral n
  | some v => s.typeName ty ++ v.literal

/-- **The code of a node** under its name, from the names it mentions. -/
def codeOf (s : Program) (name : String) : Node → List Code
  | .productClass p => Block.productClass name (p.fields.map fun f => (f.name, s.typeName f.ty))
  | .generator (.uniform min max) => Block.uniformGenerator name min max
  | .generator (.values v) => Block.valuesGenerator name (s.typeName v.ty) v.items
  | .generator (.product p parts) =>
    Block.productGenerator name (s.typeName (.product p)) (parts.map s.generatorName) p.names
  | .generator (.call f args) =>
    Block.callGenerator name (s.typeName f.returns) (args.map s.generatorName)
      (f.params.map fun p => s.typeName p.ty) f.name
  | .generator (.runArgument x ty) =>
    Block.argumentGenerator name (s.typeName ty) (s.argumentExpression x ty)
  | .enumerator (.range r) => Block.rangeEnumerator name r
  | .enumerator (.values v) => Block.valuesEnumerator name (s.typeName v.ty) v.items
  | .enumerator (.product p parts) =>
    Block.productEnumerator name (s.typeName (.product p)) (parts.map s.enumeratorName) p.names
  | .enumerator (.once g) =>
    Block.onceEnumerator name (s.typeName g.outputType) (s.generatorName g)
  | .function f =>
    match f.body with
    | .inline text => Block.definition (s.functionHead f) text
    | .external _ => Block.prototype (s.functionHead f)

/-! ## Declaring -/

/-- What a node is named before what it mentions is declared: classes
only. -/
def nameBefore (s : Program) : Node → Option String × Program
  | .productClass p =>
    let (name, s) := s.reserveClass p
    (some name, s)
  | _ => (none, s)

/-- What a node is named once what it mentions is declared: a class by
the name it took before, anything else by a number or by its own
name. -/
def nameAfter (s : Program) : Node → Option String → String × Program
  | .productClass _, reserved => (reserved.getD "", s)
  | .generator _, _ => s.reserveNumbered "qit_gen"
  | .enumerator _, _ => s.reserveNumbered "qit_iter"
  | .function f, _ => (f.name, s)

/-- Begins the declaration of a node: its key is marked, and it takes a
name if it is a class. -/
def visit (s : Program) (n : Node) : Option String × Program :=
  nameBefore { s with visited := s.visited ++ [n.key] } n

/-- Writes the declaration of a node. -/
def write (s : Program) (n : Node) (reserved : Option String) : Program :=
  let (name, s) := s.nameAfter n reserved
  let code := s.codeOf name n
  { s with
    declarations := s.declarations ++ [⟨n.key, name, code⟩]
    sheet := s.sheet.writeAll code }

/-- **Declares a node**, and before it what its text mentions and has no
declaration yet. -/
def emit (n : Node) (s : Program) : Program :=
  if s.visits n.key then s
  else
    let (reserved, s) := s.visit n
    let s := n.mentions.attach.foldl
      (fun s d =>
        if s.declares d.1.key then s
        else d.1.calls.attach.foldl (fun s c => emit c.1 s) s) s
    s.write n reserved
termination_by sizeOf n
decreasing_by exact Node.sizeOf_calls_of_mem_mentions d.2 c.2

/-- Declares nodes in order. -/
def emitAll (calls : List Node) (s : Program) : Program := calls.foldl (fun s c => emit c s) s

/-- Declares a node and everything it needs, unless it is declared. -/
def require (s : Program) (n : Node) : Program :=
  if s.declares n.key then s else emitAll n.calls s

/-- Declares each of some nodes and everything it needs. -/
def requireAll (s : Program) (ns : List Node) : Program := ns.foldl require s

/-- **Declaring a node**: the keys visited are passed over; any other
node is marked, has what it mentions declared, and is written. -/
theorem emit_eq (n : Node) (s : Program) :
    emit n s = if s.visits n.key then s
      else (requireAll (s.visit n).2 n.mentions).write n (s.visit n).1 := by
  rw [emit]
  split
  · rfl
  · simp only [requireAll]
    congr 1
    rw [← List.foldl_attach (l := n.mentions)]
    congr 1
    funext s d
    unfold require emitAll
    split
    · rfl
    · rw [← List.foldl_attach (l := d.1.calls)]

theorem emit_of_visits {n : Node} {s : Program} (h : s.visits n.key = true) :
    emit n s = s := by
  rw [emit_eq, if_pos h]

/-! ## Asking for names -/

/-- The name of a type, declared if need be. -/
def askType (s : Program) (t : Ty) : String × Program :=
  let s := s.requireAll t.classNode
  (s.typeName t, s)

/-- The name of a generator's struct, declared if need be. -/
def askGenerator (s : Program) (g : Generator) : String × Program :=
  let s := s.require (.generator g)
  (s.generatorName g, s)

/-- The name of an enumerator's struct, declared if need be. -/
def askEnumerator (s : Program) (e : Enumerator) : String × Program :=
  let s := s.require (.enumerator e)
  (s.enumeratorName e, s)

/-- The head of a function, its types declared if need be. -/
def askFunctionHead (s : Program) (f : Function) : String × Program :=
  let s := s.requireAll (Node.function f).mentions
  (s.functionHead f, s)

end Program

end Specimen
