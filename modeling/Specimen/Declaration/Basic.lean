import Specimen.Target

/-!
# Declarations

To produce a value, a program needs declarations: a class for each
product, a struct for each generator and each enumerator, a prototype
or a body for each function. What is declared is a **node**, and nodes
that have the same **key** share a declaration. A class is keyed by its
product's signature, everything else by itself.

`Ty.calls`, `Generator.calls` and the like list the nodes that have to
be declared for an object, each behind what it depends on. A node that
several others depend on is listed each time; whoever declares them
passes over the keys already declared.
-/

namespace Specimen

/-- **A node**: something a program declares. -/
inductive Node where
  /-- The class of a product. -/
  | productClass (p : Product)
  /-- The struct of a generator. -/
  | generator (g : Generator)
  /-- The struct of an enumerator. -/
  | enumerator (e : Enumerator)
  /-- A function. -/
  | function (f : Function)

/-- **The key of a declaration.** -/
inductive Node.Key where
  /-- A class, by its layout's signature. -/
  | layout (signature : String)
  /-- A generator. -/
  | generator (g : Generator)
  /-- An enumerator. -/
  | enumerator (e : Enumerator)
  /-- A function. -/
  | function (f : Function)

/-- **Whether two keys are the same.** -/
def Node.Key.same : Node.Key → Node.Key → Bool
  | layout s, layout t => s == t
  | generator g, generator h => g.same h
  | enumerator d, enumerator e => d.same e
  | function f, function g => f.same g
  | _, _ => false

/-- The key with every file in its shortest spelling. -/
def Node.Key.canonical : Node.Key → Node.Key
  | layout signature => layout signature
  | generator g => generator g.canonical
  | enumerator e => enumerator e.canonical
  | function f => function f.canonical

theorem Node.Key.same_iff {j k : Node.Key} : j.same k = true ↔ j.canonical = k.canonical := by
  cases j <;> cases k <;>
    simp [same, canonical, Generator.same_iff, Enumerator.same_iff, Function.same_iff]

/-- The key under which a node is declared. -/
def Node.key : Node → Node.Key
  | productClass p => .layout p.signature
  | generator g => .generator g
  | enumerator e => .enumerator e
  | function f => .function f

mutual

/-- **The nodes a type needs declared**: the classes of its basic
product, inner ones first. -/
def Ty.calls : Ty → List Node
  | .int => []
  | .range _ => []
  | .values ⟨ty, _⟩ => ty.calls
  | .product p => p.calls
  | .derived d => d.calls

/-- The nodes a product needs declared, its own class last. -/
def Product.calls : Product → List Node
  | ⟨name, fields⟩ => fieldsCalls fields ++ [.productClass ⟨name, fields⟩]

/-- The nodes the types of fields need declared. -/
def fieldsCalls : List Field → List Node
  | [] => []
  | ⟨_, ty, _, _⟩ :: rest => ty.calls ++ fieldsCalls rest

/-- The nodes a derived product needs declared: those of its basic
product. -/
def Derived.calls : Derived → List Node
  | ⟨.product p, _, _⟩ => p.calls
  | ⟨.derived d, _, _⟩ => d.calls

end

/-- The nodes a function needs declared: the classes it mentions, then
itself. -/
def Function.calls (f : Function) : List Node :=
  f.returns.calls ++ f.params.flatMap (fun p => p.ty.calls) ++ [.function f]

mutual

/-- **The nodes a generator needs declared**, itself last. -/
def Generator.calls : Generator → List Node
  | .uniform min max => [.generator (.uniform min max)]
  | .values v => v.ty.calls ++ [.generator (.values v)]
  | .product p parts => generatorsCalls parts ++ p.calls ++ [.generator (.product p parts)]
  | .call f args => generatorsCalls args ++ f.calls ++ [.generator (.call f args)]
  | .runArgument name ty => ty.calls ++ [.generator (.runArgument name ty)]

/-- The nodes generators need declared. -/
def generatorsCalls : List Generator → List Node
  | [] => []
  | g :: rest => g.calls ++ generatorsCalls rest

end

mutual

/-- **The nodes an enumerator needs declared**, itself last. -/
def Enumerator.calls : Enumerator → List Node
  | .range r => [.enumerator (.range r)]
  | .values v => v.ty.calls ++ [.enumerator (.values v)]
  | .product p parts => enumeratorsCalls parts ++ p.calls ++ [.enumerator (.product p parts)]
  | .once g => g.calls ++ [.enumerator (.once g)]

/-- The nodes enumerators need declared. -/
def enumeratorsCalls : List Enumerator → List Node
  | [] => []
  | e :: rest => e.calls ++ enumeratorsCalls rest

end

/-- The nodes a target needs declared. -/
def Target.calls : Target → List Node
  | .generator g => g.calls
  | .enumerator e => e.calls

/-- Notes a call behind those before, the latest first, and its key if it
is new. -/
def noteCall (seen : List (Node × Bool) × List Node.Key) (n : Node) :
    List (Node × Bool) × List Node.Key :=
  if seen.2.any n.key.same then ((n, false) :: seen.1, seen.2)
  else ((n, true) :: seen.1, n.key :: seen.2)

/-- **The calls of a declaration, each with whether its key is new.** -/
def firstVisits (calls : List Node) : List (Node × Bool) :=
  (calls.foldl noteCall ([], [])).1.reverse

/-! ## What the text of a declaration mentions -/

/-- The class that the text for a type mentions, if it is not the
integers. -/
def Ty.classNode (t : Ty) : List Node := (t.basicProduct?.map Node.productClass).toList

/-- **The nodes whose names a declaration's text mentions**, in the order
in which they are asked for. -/
def Node.mentions : Node → List Node
  | productClass p => p.fields.flatMap fun f => f.ty.classNode
  | generator (.uniform _ _) => []
  | generator (.values v) => v.ty.classNode
  | generator (.product p parts) => .productClass p :: parts.map .generator
  | generator (.call f args) =>
    f.returns.classNode ++ args.map .generator ++ f.params.flatMap fun p => p.ty.classNode
  | generator (.runArgument _ ty) => ty.classNode
  | enumerator (.range _) => []
  | enumerator (.values v) => v.ty.classNode
  | enumerator (.product p parts) => .productClass p :: parts.map .enumerator
  | enumerator (.once g) => g.outputType.classNode ++ [.generator g]
  | function f => f.returns.classNode ++ f.params.flatMap fun p => p.ty.classNode

/-- The nodes a node needs declared, itself last. -/
def Node.calls : Node → List Node
  | productClass p => p.calls
  | generator g => g.calls
  | enumerator e => e.calls
  | function f => f.calls

end Specimen
