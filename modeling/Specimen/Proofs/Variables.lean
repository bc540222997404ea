import Specimen.Proofs.Declarations

/-!
# Variables and their values

A target is gone through twice. The first time its variables are listed,
to see whether the run arguments have a value for each, and the second
time it is declared. Each time what was met before is passed over, once
by name and type, and once by key. If the list left a variable out, its
struct would be written all the same, with the empty value of the type
in place of the argument, and no error would tell.

Neither leaves one out. Both come down to the occurrences of variables
in the target, as it stands: arguments fit when each occurrence has a
value of its type (`Target.checkArgs_eq`), and then each has a struct
that gives this value (`Program.exists_declaration_of_mem_occurrences`).
`Program.build_spec` puts this together for a program that is completed
in place, which arguments that do not fit leave as it was.
-/

namespace Specimen

/-! ## The variables that occur -/

mutual

/-- **The variables that occur in a generator**, in order, each as often
as it occurs. -/
def Generator.occurrences : Generator → List Variable
  | .uniform _ _ => []
  | .values _ => []
  | .product _ parts => generatorsOccurrences parts
  | .call _ args => generatorsOccurrences args
  | .runArgument name ty => [⟨name, ty⟩]

/-- The variables that occur in generators. -/
def generatorsOccurrences : List Generator → List Variable
  | [] => []
  | g :: rest => g.occurrences ++ generatorsOccurrences rest

end

mutual

/-- **The variables that occur in an enumerator**, in order, each as often
as it occurs. -/
def Enumerator.occurrences : Enumerator → List Variable
  | .range _ => []
  | .values _ => []
  | .product _ parts => enumeratorsOccurrences parts
  | .once g => g.occurrences

/-- The variables that occur in enumerators. -/
def enumeratorsOccurrences : List Enumerator → List Variable
  | [] => []
  | e :: rest => e.occurrences ++ enumeratorsOccurrences rest

end

/-- **The variables that occur in a target.** -/
def Target.occurrences : Target → List Variable
  | .generator g => g.occurrences
  | .enumerator e => e.occurrences

/-! ## The list of variables takes each once -/

mutual

/-- The variables of a generator are those that occur, each taken
once. -/
theorem Generator.freeVariables_eq (met : List Variable) : (g : Generator) →
    g.freeVariables met = g.occurrences.foldl (addNew Variable.same) met
  | .uniform _ _ => by
    rw [Generator.freeVariables, Generator.occurrences]
    rfl
  | .values _ => by
    rw [Generator.freeVariables, Generator.occurrences]
    rfl
  | .product _ parts => by
    rw [Generator.freeVariables, Generator.occurrences, generatorsVariables_eq met parts]
  | .call _ args => by
    rw [Generator.freeVariables, Generator.occurrences, generatorsVariables_eq met args]
  | .runArgument _ _ => by
    rw [Generator.freeVariables, Generator.occurrences]
    rfl

/-- The variables of generators are those that occur, each taken once. -/
theorem generatorsVariables_eq (met : List Variable) : (gs : List Generator) →
    generatorsVariables met gs = (generatorsOccurrences gs).foldl (addNew Variable.same) met
  | [] => by
    rw [generatorsVariables, generatorsOccurrences]
    rfl
  | g :: rest => by
    rw [generatorsVariables, generatorsOccurrences, List.foldl_append, g.freeVariables_eq met,
      generatorsVariables_eq _ rest]

end

mutual

/-- The variables of an enumerator are those that occur, each taken
once. -/
theorem Enumerator.freeVariables_eq (met : List Variable) : (e : Enumerator) →
    e.freeVariables met = e.occurrences.foldl (addNew Variable.same) met
  | .range _ => by
    rw [Enumerator.freeVariables, Enumerator.occurrences]
    rfl
  | .values _ => by
    rw [Enumerator.freeVariables, Enumerator.occurrences]
    rfl
  | .product _ parts => by
    rw [Enumerator.freeVariables, Enumerator.occurrences, enumeratorsVariables_eq met parts]
  | .once g => by rw [Enumerator.freeVariables, Enumerator.occurrences, g.freeVariables_eq met]

/-- The variables of enumerators are those that occur, each taken
once. -/
theorem enumeratorsVariables_eq (met : List Variable) : (es : List Enumerator) →
    enumeratorsVariables met es = (enumeratorsOccurrences es).foldl (addNew Variable.same) met
  | [] => by
    rw [enumeratorsVariables, enumeratorsOccurrences]
    rfl
  | e :: rest => by
    rw [enumeratorsVariables, enumeratorsOccurrences, List.foldl_append, e.freeVariables_eq met,
      enumeratorsVariables_eq _ rest]

end

/-- The variables of a target are those that occur, each taken once. -/
theorem Target.freeVariables_eq (t : Target) :
    t.freeVariables = t.occurrences.foldl (addNew Variable.same) [] := by
  cases t with
  | generator g => exact g.freeVariables_eq []
  | enumerator e => exact e.freeVariables_eq []

/-! ## The variables among nodes -/

/-- The node of a variable. -/
def Variable.node (x : Variable) : Node := .generator (.runArgument x.name x.ty)

/-- The variable of a node, if it is one. -/
def Node.variable? : Node → Option Variable
  | generator (.runArgument name ty) => some ⟨name, ty⟩
  | _ => none

theorem Node.variable?_eq_some {n : Node} {x : Variable} : n.variable? = some x ↔ n = x.node := by
  constructor
  · intro h
    cases n with
    | generator g =>
      cases g <;> cases h
      rfl
    | productClass | enumerator | function => cases h
  · rintro rfl
    rfl

theorem Ty.filterMap_variable?_calls (t : Ty) : t.calls.filterMap Node.variable? = [] := by
  refine List.filterMap_eq_nil_iff.mpr fun c hc => ?_
  obtain ⟨p, rfl⟩ := Ty.exists_of_mem_calls hc
  rfl

theorem Product.filterMap_variable?_calls (p : Product) :
    p.calls.filterMap Node.variable? = [] := by
  have h := (Ty.product p).filterMap_variable?_calls
  rwa [Ty.calls] at h

/-- What a function needs are no variables. -/
theorem Function.filterMap_variable?_calls (f : Function) :
    f.calls.filterMap Node.variable? = [] := by
  have hparams : (f.params.flatMap fun p => p.ty.calls).filterMap Node.variable? = [] := by
    rw [List.filterMap_flatMap]
    exact List.flatMap_eq_nil_iff.mpr fun p _ => p.ty.filterMap_variable?_calls
  rw [Function.calls, List.filterMap_append, List.filterMap_append,
    f.returns.filterMap_variable?_calls, hparams]
  rfl

mutual

/-- **The variables that occur in a generator** are those among the nodes
it needs. -/
theorem Generator.filterMap_variable?_calls : (g : Generator) →
    g.calls.filterMap Node.variable? = g.occurrences
  | .uniform _ _ => by
    rw [Generator.calls, Generator.occurrences]
    rfl
  | .values v => by
    rw [Generator.calls, Generator.occurrences, List.filterMap_append,
      v.ty.filterMap_variable?_calls]
    rfl
  | .product p parts => by
    rw [Generator.calls, Generator.occurrences, List.filterMap_append, List.filterMap_append,
      p.filterMap_variable?_calls, filterMap_variable?_generatorsCalls parts, List.append_nil]
    exact List.append_nil _
  | .call f args => by
    rw [Generator.calls, Generator.occurrences, List.filterMap_append, List.filterMap_append,
      f.filterMap_variable?_calls, filterMap_variable?_generatorsCalls args, List.append_nil]
    exact List.append_nil _
  | .runArgument _ ty => by
    rw [Generator.calls, Generator.occurrences, List.filterMap_append, ty.filterMap_variable?_calls]
    rfl

/-- The variables that occur in generators are those among the nodes they
need. -/
theorem filterMap_variable?_generatorsCalls : (gs : List Generator) →
    (generatorsCalls gs).filterMap Node.variable? = generatorsOccurrences gs
  | [] => by
    rw [generatorsCalls, generatorsOccurrences]
    rfl
  | g :: rest => by
    rw [generatorsCalls, generatorsOccurrences, List.filterMap_append,
      g.filterMap_variable?_calls, filterMap_variable?_generatorsCalls rest]

end

mutual

/-- **The variables that occur in an enumerator** are those among the
nodes it needs. -/
theorem Enumerator.filterMap_variable?_calls : (e : Enumerator) →
    e.calls.filterMap Node.variable? = e.occurrences
  | .range _ => by
    rw [Enumerator.calls, Enumerator.occurrences]
    rfl
  | .values v => by
    rw [Enumerator.calls, Enumerator.occurrences, List.filterMap_append,
      v.ty.filterMap_variable?_calls]
    rfl
  | .product p parts => by
    rw [Enumerator.calls, Enumerator.occurrences, List.filterMap_append, List.filterMap_append,
      p.filterMap_variable?_calls, filterMap_variable?_enumeratorsCalls parts, List.append_nil]
    exact List.append_nil _
  | .once g => by
    rw [Enumerator.calls, Enumerator.occurrences, List.filterMap_append,
      g.filterMap_variable?_calls]
    exact List.append_nil _

/-- The variables that occur in enumerators are those among the nodes they
need. -/
theorem filterMap_variable?_enumeratorsCalls : (es : List Enumerator) →
    (enumeratorsCalls es).filterMap Node.variable? = enumeratorsOccurrences es
  | [] => by
    rw [enumeratorsCalls, enumeratorsOccurrences]
    rfl
  | e :: rest => by
    rw [enumeratorsCalls, enumeratorsOccurrences, List.filterMap_append,
      e.filterMap_variable?_calls, filterMap_variable?_enumeratorsCalls rest]

end

/-- **The variables that occur in a target** are those among the nodes it
needs. -/
theorem Target.filterMap_variable?_calls (t : Target) :
    t.calls.filterMap Node.variable? = t.occurrences := by
  cases t with
  | generator g => exact g.filterMap_variable?_calls
  | enumerator e => exact e.filterMap_variable?_calls

theorem Target.node_mem_calls {t : Target} {x : Variable} (h : x ∈ t.occurrences) :
    x.node ∈ t.calls := by
  rw [← t.filterMap_variable?_calls] at h
  obtain ⟨c, hc, hx⟩ := List.mem_filterMap.mp h
  rwa [← Node.variable?_eq_some.mp hx]

/-! ## Variables that are the same -/

mutual

theorem Ty.layout_canonical : (t : Ty) → t.canonical.layout = t.layout
  | .int => by rw [Ty.canonical]
  | .range _ => by rw [Ty.canonical]
  | .values ⟨ty, _⟩ => by
    rw [Ty.canonical, Values.canonical, Ty.layout, Ty.layout, ty.layout_canonical]
  | .product p => by rw [Ty.canonical, Ty.layout, Ty.layout, p.layout_canonical]
  | .derived d => by rw [Ty.canonical, Ty.layout, Ty.layout, d.layout_canonical]

theorem Product.layout_canonical : (p : Product) → p.canonical.layout = p.layout
  | ⟨_, fields⟩ => by
    rw [Product.canonical, Product.layout, Product.layout, fieldLayouts_canonical fields]

theorem fieldLayouts_canonical : (fields : List Field) →
    fieldLayouts (fieldsCanonical fields) = fieldLayouts fields
  | [] => by rw [fieldsCanonical]
  | ⟨_, ty, _, _⟩ :: rest => by
    rw [fieldsCanonical, Field.canonical, fieldLayouts, fieldLayouts, ty.layout_canonical,
      fieldLayouts_canonical rest]

theorem Derived.layout_canonical : (d : Derived) → d.canonical.layout = d.layout
  | ⟨.product p, _, _⟩ => by
    rw [Derived.canonical, Parent.canonical, Derived.layout, Derived.layout, p.layout_canonical]
  | ⟨.derived d, _, _⟩ => by
    rw [Derived.canonical, Parent.canonical, Derived.layout, Derived.layout, d.layout_canonical]

end

theorem Ty.layout_congr {t u : Ty} (h : t.canonical = u.canonical) : t.layout = u.layout := by
  rw [← t.layout_canonical, h, u.layout_canonical]

namespace Variable

theorem same_eq (x y : Variable) : x.same y = x.node.key.same y.node.key := by
  rw [Bool.eq_iff_iff, Node.Key.same_iff]
  simp [same, node, Node.key, Node.Key.canonical, Generator.canonical, Ty.same_iff]

/-- A node of the key of a variable is a variable that is the same. -/
theorem exists_of_same_key {n : Node} {x : Variable} (h : n.key.same x.node.key = true) :
    ∃ y : Variable, n = y.node ∧ y.same x = true := by
  cases n with
  | generator g =>
    cases g with
    | runArgument name ty => exact ⟨⟨name, ty⟩, rfl, (same_eq ..).trans h⟩
    | uniform | values | product | call =>
      rw [Node.Key.same_iff] at h
      simp [Node.key, node, Node.Key.canonical, Generator.canonical] at h
  | productClass | enumerator | function => cases h

/-- Whether a node is a variable that is the same is told by its key. -/
theorem any_same_variable? (x : Variable) (n : Node) :
    n.variable?.any x.same = x.node.key.same n.key := by
  cases hn : n.variable? with
  | some y =>
    rw [Node.variable?_eq_some.mp hn]
    exact x.same_eq y
  | none =>
    symm
    rw [Option.any_none, Bool.eq_false_iff]
    intro hsame
    obtain ⟨y, rfl, -⟩ := exists_of_same_key (Node.Key.same_symm hsame)
    cases hn

theorem eq_of_same {x y : Variable} (h : x.same y = true) :
    x.name = y.name ∧ x.ty.layout = y.ty.layout := by
  rw [same, Bool.and_eq_true, beq_iff_eq, Ty.same_iff] at h
  exact ⟨h.1, Ty.layout_congr h.2⟩

/-! ## Whether arguments fit -/

/-- **A variable is bound** to a value of its type. -/
def Bound (args : RunArgs) (x : Variable) : Prop :=
  ∃ v, NameTable.find? x.name args = some v ∧ x.ty.accepts v = true

theorem check_eq_ok {args : RunArgs} {x : Variable} : x.check args = .ok () ↔ x.Bound args := by
  unfold check Bound
  cases NameTable.find? x.name args with
  | none => exact ⟨nofun, nofun⟩
  | some v =>
    dsimp only
    split
    next h => exact ⟨fun _ => ⟨v, rfl, h⟩, fun _ => rfl⟩
    next h =>
      refine ⟨nofun, fun ⟨w, hw, haccepts⟩ => ?_⟩
      cases hw
      exact absurd haccepts h

/-- **Why a variable is refused**: it has no value, or one that is not of
its type. -/
theorem check_eq_error {args : RunArgs} {x : Variable} {e : Error} :
    x.check args = .error e ↔
      (NameTable.find? x.name args = none ∧ e = .unboundVariable x.name) ∨
      ∃ v, NameTable.find? x.name args = some v ∧ x.ty.accepts v = false ∧
        e = .invalidType (.runArgumentMismatch x.name v x.ty.signature) := by
  unfold check
  cases NameTable.find? x.name args with
  | none =>
    constructor
    · rintro ⟨⟩
      exact .inl ⟨rfl, rfl⟩
    · rintro (⟨-, rfl⟩ | ⟨v, hv, -⟩)
      · rfl
      · cases hv
  | some v =>
    dsimp only
    split
    next h =>
      refine ⟨nofun, ?_⟩
      rintro (⟨hnone, -⟩ | ⟨w, hw, haccepts, -⟩)
      · cases hnone
      · cases hw
        exact absurd (h.symm.trans haccepts) Bool.noConfusion
    next h =>
      constructor
      · rintro ⟨⟩
        exact .inr ⟨v, rfl, Bool.eq_false_iff.mpr h, rfl⟩
      · rintro (⟨hnone, -⟩ | ⟨w, hw, -, rfl⟩)
        · cases hnone
        · cases hw
          rfl

/-- Variables that are the same are treated alike. -/
theorem check_congr {x y : Variable} (h : x.same y = true) (args : RunArgs) :
    x.check args = y.check args := by
  obtain ⟨hname, hlayout⟩ := eq_of_same h
  have haccepts : x.ty.accepts = y.ty.accepts := by
    funext v
    rw [Ty.accepts, Ty.accepts, hlayout]
  rw [check, check, hname, haccepts, Ty.signature, Ty.signature, hlayout]

end Variable

/-- What is asked of each thing may be asked of each once, if things that
are the same give the same answer. -/
theorem forM_foldl_addNew {α ε : Type} {same : α → α → Bool} {f : α → Except ε Unit}
    (h : ∀ a b, same a b = true → f a = f b) (met l : List α) :
    (l.foldl (addNew same) met).forM f = (met ++ l).forM f := by
  induction l generalizing met with
  | nil => rw [List.foldl_nil, List.append_nil]
  | cons a l ih =>
    rw [List.foldl_cons, ih, addNew]
    split
    next hmet =>
      obtain ⟨b, hb, hsame⟩ := List.any_eq_true.mp hmet
      rw [forM_append, forM_append, forM_cons]
      -- once all that was met has passed, so has what is the same
      cases hpassed : met.forM f with
      | error e => rfl
      | ok u =>
        rw [h a b hsame, forM_eq_ok.mp hpassed b hb]
        rfl
    next => rw [List.append_assoc, List.singleton_append]

/-- **Whether arguments fit** is asked of all variables that occur, in
order. -/
theorem Target.checkArgs_eq (t : Target) (args : RunArgs) :
    t.checkArgs args = t.occurrences.forM (Variable.check args) := by
  rw [checkArgs, t.freeVariables_eq]
  exact forM_foldl_addNew (fun x y h => Variable.check_congr (x := x) (y := y) h args) []
    t.occurrences

namespace Program

/-! ## Completing a program in place -/

/-- **Completes a program in place.** The program is changed once the
arguments have passed, and whatever it is then is left behind. -/
def build (t : Target) (args : RunArgs) : ExceptT Error (StateM Program) String := do
  t.checkArgs args
  modify fun s => { s with args }
  modify (emitAll t.calls)
  let element ← modifyGet (askType · t.elementType)
  let handle ← modifyGet (askTarget · t)
  return (← get).sourceAround t element handle

/-- **What is left in place** is the program that is given back or, if
there is none, the program as it was. -/
theorem run_build (s : Program) (t : Target) (args : RunArgs) :
    (build t args).run s = match s.collect t args with
      | .ok (source, s') => (.ok source, s')
      | .error e => (.error e, s) := by
  unfold build collect
  cases t.checkArgs args <;> rfl

/-- A program refuses arguments when its target does. -/
theorem collect_eq_error {s : Program} {t : Target} {args : RunArgs} {e : Error} :
    s.collect t args = .error e ↔ t.checkArgs args = .error e := by
  unfold collect
  cases t.checkArgs args with
  | error e' =>
    constructor <;>
      · rintro ⟨⟩
        rfl
  | ok u => exact ⟨nofun, nofun⟩

/-! ## The structs of variables -/

/-- **The expression for a value of a type**: an integer's literal, and in
front of a tuple's the name of the type. -/
def typedLiteral (element : String) : Value → String
  | .int n => Value.intLiteral n
  | v => element ++ v.literal

@[simp] theorem typedLiteral_int (element : String) (n : Int32) :
    typedLiteral element (.int n) = Value.intLiteral n := rfl

@[simp] theorem typedLiteral_tuple (element : String) (items : List Value) :
    typedLiteral element (.tuple items) = element ++ (Value.tuple items).literal := rfl

theorem argumentExpression_of_find? {s : Program} {name : String} {v : Value}
    (h : NameTable.find? name s.args = some v) (ty : Ty) :
    s.argumentExpression name ty = typedLiteral (s.typeName ty) v := by
  rw [argumentExpression, h]
  cases v <;> rfl

/-- The name of a type is a matter of its layout. -/
theorem typeName_eq (s : Program) (t : Ty) :
    s.typeName t = match t.layout with
      | .int => "int"
      | .product name fields => s.handle (.layout (Layout.product name fields).signature) := by
  rw [typeName, t.layout_eq]
  cases t.basicProduct? with
  | none => rfl
  | some p =>
    obtain ⟨name, fields⟩ := p
    dsimp only [Option.map_some, Option.getD_some]
    rw [Product.signature, Product.layout]

/-- **A variable that occurs has one struct**, and it gives the value that
the variable is bound to. The struct may have been written for another
occurrence, which has the same name and the same layout, and so the same
value. -/
theorem exists_declaration_of_mem_occurrences (workingDir sourceDir : String) {t : Target}
    {args : RunArgs} {x : Variable} (hx : x ∈ t.occurrences) {v : Value}
    (hv : NameTable.find? x.name args = some v) :
    let s := t.calls.foldl place { start workingDir sourceDir with args }
    ∃ before d after, s.declarations = before ++ d :: after ∧ d.key.same x.node.key = true ∧
      (∀ e ∈ before ++ after, e.key.same x.node.key = false) ∧
      d.code = Block.argumentGenerator d.handle (s.typeName x.ty)
        (typedLiteral (s.typeName x.ty) v) := by
  have hsettled : Settled { start workingDir sourceDir with args } [] :=
    settled_start workingDir sourceDir
  have hcalled : callsFor t.calls x.node.key = true :=
    callsFor_iff.mpr ⟨_, Target.node_mem_calls hx, x.node.key.same_refl⟩
  have hargs := args_foldl_place { start workingDir sourceDir with args } t.calls
  obtain ⟨n, hn, before, after, hsplit, hothers⟩ :=
    exists_declaration_of_callsFor hsettled rfl t.inOrder_calls hcalled
  generalize t.calls.foldl place { start workingDir sourceDir with args } = s at *
  obtain ⟨y, rfl, hsame⟩ := Variable.exists_of_same_key hn
  obtain ⟨hname, hlayout⟩ := Variable.eq_of_same hsame
  have hfind : NameTable.find? y.name s.args = some v := by rw [hargs, hname, hv]
  refine ⟨before, _, after, hsplit, hn, hothers, ?_⟩
  have htype : s.typeName y.ty = s.typeName x.ty := by rw [typeName_eq, typeName_eq, hlayout]
  show s.codeOf _ y.node = _
  rw [Variable.node, codeOf, argumentExpression_of_find? hfind, htype]
  rfl

/-! ## Arguments come first -/

/-- **Arguments are checked before anything is changed**, of all
variables that occur, in order. They pass if each variable is bound to a
value of its type, and otherwise the first that is not is complained
about. What is refused leaves the program as it was.

A program of its own that is completed has exactly one struct for each
variable. All there is in it is a function that gives the literal of the
value that the variable is bound to, so no variable is left with the empty
value of its type. -/
theorem build_spec (t : Target) (args : RunArgs) :
    (∀ (s : Program) (e : Error) (s' : Program),
      (build t args).run s = (.error e, s') ↔ t.checkArgs args = .error e ∧ s' = s) ∧
    (t.checkArgs args = .ok () ↔ ∀ x ∈ t.occurrences, x.Bound args) ∧
    (∀ e : Error, t.checkArgs args = .error e ↔ ∃ before x after,
      t.occurrences = before ++ x :: after ∧ (∀ y ∈ before, y.Bound args) ∧
      ((NameTable.find? x.name args = none ∧ e = .unboundVariable x.name) ∨
        ∃ v, NameTable.find? x.name args = some v ∧ x.ty.accepts v = false ∧
          e = .invalidType (.runArgumentMismatch x.name v x.ty.signature))) ∧
    (t.checkArgs args = .ok () → ∀ workingDir sourceDir, ∃ source s,
      (build t args).run (start workingDir sourceDir) = (.ok source, s) ∧
      source = Code.render (s.sourceCode t) ∧
      ∀ x ∈ t.occurrences, ∃ v before d after,
        NameTable.find? x.name args = some v ∧ x.ty.accepts v = true ∧
        s.declarations = before ++ d :: after ∧ d.key.same x.node.key = true ∧
        (∀ e ∈ before ++ after, e.key.same x.node.key = false) ∧
        d.code = [
          .block ("struct " ++ d.handle) [
            .block ("void generate(" ++ s.typeName x.ty ++ " &out)") [
              .line ("out = " ++ typedLiteral (s.typeName x.ty) v ++ ";")] ""] ";",
          .gap]) := by
  have hok : t.checkArgs args = .ok () ↔ ∀ x ∈ t.occurrences, x.Bound args := by
    rw [t.checkArgs_eq, forM_eq_ok]
    exact forall₂_congr fun x _ => Variable.check_eq_ok
  refine ⟨fun s e s' => ?_, hok, fun e => ?_, fun hargs workingDir sourceDir => ?_⟩
  · rw [run_build, ← collect_eq_error (s := s)]
    cases s.collect t args with
    | ok a => exact ⟨nofun, nofun⟩
    | error e' =>
      constructor
      · rintro ⟨⟩
        exact ⟨rfl, rfl⟩
      · rintro ⟨⟨⟩, rfl⟩
        rfl
  · rw [t.checkArgs_eq, forM_eq_error]
    refine exists₃_congr fun before x after => and_congr_right fun _ => and_congr ?_ ?_
    · exact forall₂_congr fun y _ => Variable.check_eq_ok
    · exact Variable.check_eq_error
  · have hrun := run_build (start workingDir sourceDir) t args
    rw [collect_start_eq workingDir sourceDir hargs] at hrun
    refine ⟨_, _, hrun, rfl, fun x hx => ?_⟩
    obtain ⟨v, hv, haccepts⟩ := hok.mp hargs x hx
    obtain ⟨before, d, after, hdeclaration⟩ :=
      exists_declaration_of_mem_occurrences workingDir sourceDir hx hv
    exact ⟨v, before, d, after, hv, haccepts, hdeclaration⟩

/-- Two variables of one name, one an integer and one from a range. Without
a value they are refused and nothing is written, and with one each has a
struct that gives it. -/
theorem build_spec_pair :
    let t : Target := .generator (.product (Product.tuple [.int, .range ⟨0, 5⟩])
      [.runArgument "n" .int, .runArgument "n" (.range ⟨0, 5⟩)])
    let args : RunArgs := [("n", .int 3)]
    let s := start "/" "/src"
    (build t []).run s = (.error (.unboundVariable "n"), s) ∧
    ∃ source s', (build t args).run s = (.ok source, s') ∧
      ∃ d ∈ s'.declarations, ∃ e ∈ s'.declarations, d.key.same e.key = false ∧
        d.code = [.block ("struct " ++ d.handle)
          [.block "void generate(int &out)" [.line "out = 3;"] ""] ";", .gap] ∧
        e.code = [.block ("struct " ++ e.handle)
          [.block "void generate(int &out)" [.line "out = 3;"] ""] ";", .gap] := by
  intro t args s
  let x : Variable := ⟨"n", .int⟩
  let y : Variable := ⟨"n", .range ⟨0, 5⟩⟩
  have hoccurrences : t.occurrences = [x, y] := rfl
  have hargs : t.checkArgs args = .ok () := by
    refine (build_spec t args).2.1.mpr fun z hz => ⟨.int 3, ?_⟩
    rw [hoccurrences] at hz
    rcases List.mem_cons.mp hz with rfl | hz
    · exact ⟨rfl, rfl⟩
    · cases List.mem_singleton.mp hz
      exact ⟨rfl, rfl⟩
  have hunbound : t.checkArgs [] = .error (.unboundVariable "n") :=
    ((build_spec t []).2.2.1 _).mpr ⟨[], x, [y], hoccurrences, nofun, .inl ⟨rfl, rfl⟩⟩
  obtain ⟨source, s', hrun, -, hstructs⟩ := (build_spec t args).2.2.2 hargs "/" "/src"
  obtain ⟨v, before, d, after, hv, -, hsplit, hd, -, hdcode⟩ :=
    hstructs x (hoccurrences ▸ List.mem_cons_self)
  obtain ⟨w, before', e, after', hw, -, hsplit', he, -, hecode⟩ :=
    hstructs y (hoccurrences ▸ List.mem_cons_of_mem x List.mem_cons_self)
  cases hv
  cases hw
  refine ⟨((build_spec t []).1 s _ s).mpr ⟨hunbound, rfl⟩, source, s', hrun, d, ?_, e, ?_, ?_,
    hdcode, hecode⟩
  · exact hsplit ▸ List.mem_append_right before List.mem_cons_self
  · exact hsplit' ▸ List.mem_append_right before' List.mem_cons_self
  · rw [Bool.eq_false_iff]
    intro hde
    have hxy := Node.Key.same_trans (Node.Key.same_symm hd) (Node.Key.same_trans hde he)
    rw [← Variable.same_eq] at hxy
    revert hxy
    decide +kernel

end Program

end Specimen
