import Specimen.Proofs.Declaring

/-!
# What is written of a node

Of every node that is declared one unit of code is written, and nothing
of any other node is in it. A class is a struct, and behind it the
function that writes its values. A generator is a struct whose last
member is `generate`, and an enumerator one whose last members are
`reset` and `next`. A function is its head, with a semicolon or with its
body. Behind each there is an empty line.

Code is a tree, so that a unit is closed goes without saying. But a tree
could have the struct of one node within that of another. In a **closed
unit** (`ClosedUnit`) there are only lines beside the members just
named, whatever names and literals are in them, and the members consist
of lines and statements. So each unit stands for its node alone
(`Program.closedUnit_codeOf`), and every program is a list of such units
(`Program.Steps.closed`).
-/

namespace Specimen

/-- Whether code is a single line. -/
def Code.isLine : Code → Bool
  | .line _ => true
  | .block _ _ _ => false

@[simp] theorem Code.isLine_line (text : String) : (Code.line text).isLine = true := rfl

/-- **A closed unit of code**: what a node of each kind is written as,
under a name. -/
inductive ClosedUnit (name : String) : Node.Key → List Code → Prop where
  /-- A class, and the function that writes its values. -/
  | layout (signature : String) {fields calls : List Code} (hfields : fields.all Code.isLine)
      (hcalls : calls.all Code.isLine) :
    ClosedUnit name (.layout signature)
      [.block ("struct " ++ name) fields ";", .line "",
        .block ("static void qit_write(FILE *f, const " ++ name ++ " &v)") calls "", .line ""]
  /-- The struct of a generator. -/
  | generator (g : Generator) (element : String) (data : List Code) {body : List Code}
      (hdata : data.all Code.isLine) (hbody : body.all Code.isLine) :
    ClosedUnit name (.generator g)
      [.block ("struct " ++ name)
          (data ++ [.block ("void generate(" ++ element ++ " &out)") body ""]) ";",
        .line ""]
  /-- The struct of an enumerator. -/
  | enumerator (e : Enumerator) (element : String) (data : List Code)
      (reset next : List Machine.Statement) (hdata : data.all Code.isLine) :
    ClosedUnit name (.enumerator e)
      [.block ("struct " ++ name)
          (data ++ [.block "void reset()" (Machine.codes reset) "",
            .block ("bool next(" ++ element ++ " &out)") (Machine.codes next) ""]) ";",
        .line ""]
  /-- A function that is defined elsewhere. -/
  | prototype (f : Function) (returns params : String) :
    ClosedUnit name (.function f)
      [.line (returns ++ " " ++ f.name ++ "(" ++ params ++ ")" ++ ";"), .line ""]
  /-- A function with its body. -/
  | definition (f : Function) (returns params : String) {body : List Code}
      (hbody : body.all Code.isLine) :
    ClosedUnit name (.function f)
      [.block (returns ++ " " ++ f.name ++ "(" ++ params ++ ")") body "", .line ""]

namespace Block

@[simp] theorem all_isLine_unused (names : List String) : (unused names).all Code.isLine := by
  simp [unused]

@[simp] theorem all_isLine_memberLines (letter : String) (members : List String) :
    (memberLines letter members).all Code.isLine := by
  simp [memberLines]

end Block

namespace Program

theorem closedUnit_codeOf_generator (s : Program) (name : String) (g : Generator) :
    ClosedUnit name (.generator g) (s.codeOf name (.generator g)) := by
  cases g with
  | uniform min max => exact .generator _ "int" [_] rfl rfl
  | values v => exact .generator _ _ [_, _, _] rfl rfl
  | product p parts =>
    refine .generator _ _ _ (Block.all_isLine_memberLines "f" _) ?_
    split <;> simp
  | call f args =>
    refine .generator _ _ _ (Block.all_isLine_memberLines "a" _) ?_
    simp
  | runArgument x ty => exact .generator _ _ [] rfl rfl

theorem closedUnit_codeOf_enumerator (s : Program) (name : String) (e : Enumerator) :
    ClosedUnit name (.enumerator e) (s.codeOf name (.enumerator e)) := by
  cases e with
  | range r => exact .enumerator _ "int" [_] _ _ rfl
  | values v => exact .enumerator _ _ [_, _, _] _ _ rfl
  | product p parts =>
    refine .enumerator _ _ (_ ++ [_, _, _]) _ _ ?_
    simp
  | once g => exact .enumerator _ _ [_, _] _ _ rfl

/-- **The code of a node is one closed unit**, in any program and under
any name. What the node mentions is put into lines and heads by name,
and never written out. -/
theorem closedUnit_codeOf (s : Program) (name : String) (n : Node) :
    ClosedUnit name n.key (s.codeOf name n) := by
  cases n with
  | productClass p =>
    refine .layout _ ?_ ?_
    · simp
    · split <;> simp
  | generator g => exact s.closedUnit_codeOf_generator name g
  | enumerator e => exact s.closedUnit_codeOf_enumerator name e
  | function f =>
    rw [codeOf]
    cases f.body with
    | inline text => exact .definition f _ _ (by simp)
    | external _ => exact .prototype f _ _

/-! ## Programs of closed units -/

/-- **A program of closed units**: each declaration is one, of the kind
that its key says and under its name. -/
def Closed (s : Program) : Prop := ∀ d ∈ s.declarations, ClosedUnit d.handle d.key d.code

section

variable {s : Program}

theorem Closed.visit (h : s.Closed) (n : Node) : (s.visit n).2.Closed := by
  unfold Closed
  rw [declarations_visit]
  exact h

theorem Closed.write (h : s.Closed) (n : Node) (reserved : Option String) :
    (s.write n reserved).Closed := by
  unfold Closed
  rw [declarations_write]
  exact List.forall_mem_append.mpr
    ⟨h, List.forall_mem_singleton.mpr (closedUnit_codeOf _ _ n)⟩

/-- **Steps write closed units only.** A visit writes nothing, however
many nodes have begun by then, and a node that is written is written
whole. -/
theorem Steps.closed {P : Node → Prop} {x y : Program × List Begun} (h : Steps P x y)
    (hx : x.1.Closed) : y.1.Closed := by
  induction h with
  | refl => exact hx
  | tail _ hstep ih =>
    cases hstep with
    | visit _ _ => exact ih.visit _
    | write _ => exact ih.write _ _

end

end Program

end Specimen
