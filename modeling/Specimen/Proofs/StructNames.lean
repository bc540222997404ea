import Specimen.Proofs.ClosedUnits
import Specimen.Proofs.DeclaringInOrder
import Specimen.Proofs.GivenNames
import Specimen.Proofs.Made

/-!
# The names of structs

A generated program has a struct for each class, each generator and each
enumerator. Classes are named after their products, and never alike,
because the names they took are remembered. Generators and enumerators
are numbered, and never alike either, because no number is used twice.
But these names are not remembered: a product that is called like one
of them gets a class of the same name, and one that is called like the
type of the integers gets a class of that name. Both make programs that
do not compile.

So the names differ except for products that ask for a reserved name
(`Program.structNames_of_collect`), and for those they do not
(`Program.structNames_of_handle`).
-/

namespace Specimen

namespace Code

/-- The name of the struct that a block with a head and a tail
defines. -/
def structName? (head tail : String) : Option String :=
  if tail = ";" ∧ "struct ".toList <+: head.toList then some (String.ofList (head.toList.drop 7))
  else none

mutual

/-- **The names of the structs in code**, at any depth. -/
def structNames : Code → List String
  | .line _ => []
  | .block head body tail => (structName? head tail).toList ++ structNamesAll body

/-- The names of the structs in codes. -/
def structNamesAll : List Code → List String
  | [] => []
  | c :: rest => c.structNames ++ structNamesAll rest

end

@[simp] theorem structNamesAll_nil : structNamesAll [] = [] := by rw [structNamesAll]

@[simp] theorem structNamesAll_cons (c : Code) (rest : List Code) :
    structNamesAll (c :: rest) = c.structNames ++ structNamesAll rest := by rw [structNamesAll]

@[simp] theorem structNamesAll_append (a b : List Code) :
    structNamesAll (a ++ b) = structNamesAll a ++ structNamesAll b := by
  induction a with
  | nil => rfl
  | cons c a ih => rw [List.cons_append, structNamesAll, structNamesAll, ih, List.append_assoc]

@[simp] theorem structNames_line (text : String) : (line text).structNames = [] := by
  rw [structNames]

@[simp] theorem structNames_gap : gap.structNames = [] := structNames_line ""

/-- A block with nothing behind its brace defines no struct. -/
@[simp] theorem structNames_block (head : String) (body : List Code) :
    (block head body "").structNames = structNamesAll body := by
  rw [structNames, structName?, if_neg fun h => nomatch h.1]
  rfl

@[simp] theorem structNames_struct (name : String) (body : List Code) :
    (block ("struct " ++ name) body ";").structNames = name :: structNamesAll body := by
  have hname : structName? ("struct " ++ name) ";" = some name := by
    rw [structName?, String.toList_append, if_pos ⟨rfl, List.prefix_append _ _⟩]
    exact congrArg some String.ofList_toList
  rw [structNames, hname]
  rfl

/-- Lines define no structs. -/
theorem structNamesAll_of_isLine {code : List Code} (h : code.all isLine) :
    structNamesAll code = [] := by
  induction code with
  | nil => exact structNamesAll_nil
  | cons c code ih =>
    rw [List.all_cons, Bool.and_eq_true] at h
    rw [structNamesAll_cons, ih h.2]
    cases c with
    | line text => rw [structNames_line, List.append_nil]
    | block => cases h.1

@[simp] theorem structNamesAll_map {α : Type} {f : α → Code} (h : ∀ a, (f a).structNames = [])
    (l : List α) : structNamesAll (l.map f) = [] := by
  induction l with
  | nil => exact structNamesAll_nil
  | cons a l ih => rw [List.map_cons, structNamesAll, h, ih, List.append_nil]

end Code

/-! ## Structs of declarations -/

namespace Machine

mutual

theorem Statement.structNames_code : (s : Statement) → s.code.structNames = []
  | .when condition body => by
    rw [Statement.code, Code.structNames_block, structNamesAll_codes body]
  | .setFlag _ _ | .setCounter _ | .setPosition | .advanceCounter | .advancePosition
  | .giveCounter | .giveItem | .giveTuple | .giveGenerated | .resetField _ | .return _ => by
    rw [Statement.code, Code.structNames_line]

theorem structNamesAll_codes : (body : List Statement) → Code.structNamesAll (codes body) = []
  | [] => by rw [codes, Code.structNamesAll_nil]
  | s :: rest => by
    rw [codes, Code.structNamesAll, s.structNames_code, structNamesAll_codes rest]
    rfl

end

end Machine

/-- Whether a key is that of a struct: all but functions are. -/
def Node.Key.isStruct : Node.Key → Bool
  | layout _ => true
  | generator _ => true
  | enumerator _ => true
  | function _ => false

/-- **A closed unit defines one struct**, and that of a function none. -/
theorem ClosedUnit.structNamesAll_eq {name : String} {k : Node.Key} {code : List Code}
    (h : ClosedUnit name k code) :
    Code.structNamesAll code = if k.isStruct then [name] else [] := by
  cases h with
  | layout _ hfields hcalls =>
    simp [Code.structNamesAll_of_isLine hfields, Code.structNamesAll_of_isLine hcalls,
      Node.Key.isStruct]
  | generator _ _ _ hdata hbody =>
    simp [Code.structNamesAll_of_isLine hdata, Code.structNamesAll_of_isLine hbody,
      Node.Key.isStruct]
  | enumerator _ _ _ _ _ hdata =>
    simp [Code.structNamesAll_of_isLine hdata, Machine.structNamesAll_codes, Node.Key.isStruct]
  | prototype => simp [Node.Key.isStruct]
  | definition _ _ _ hbody => simp [Code.structNamesAll_of_isLine hbody, Node.Key.isStruct]

/-- **The name of the struct** that a declaration defines. -/
def Declaration.structName? (d : Declaration) : Option String :=
  if d.key.isStruct then some d.handle else none

/-- What a product is called, if the node is its class. -/
def Node.productName? : Node → Option String
  | .productClass p => p.name
  | _ => none

/-- Whether a node is the class of a product. -/
def Node.isClass : Node → Bool
  | .productClass _ => true
  | _ => false

namespace Program

/-- The names of the structs declared, in order. -/
def structs (s : Program) : List String := s.declarations.filterMap Declaration.structName?

/-- The fixed parts of a source define no structs. -/
theorem structNamesAll_sourceCode (s : Program) (t : Target) :
    Code.structNamesAll (s.sourceCode t) = Code.structNamesAll s.declarationCode := by
  have hpreamble : Code.structNamesAll preamble = [] := by simp [preamble]
  have hincludes : Code.structNamesAll (includeCode s.includes) = [] := by
    unfold includeCode
    split <;> simp
  have hmain : ∀ element handle, (mainCode t element handle).structNames = [] := by
    intro element handle
    cases t <;> simp [mainCode, openPipe, writeTarget]
  simp [sourceCode, hpreamble, hincludes, hmain]

/-! ## Names while nodes are declared -/

/-- The names of structs that are declared, and those of classes that
have begun. -/
def takenNames (s : Program) (begun : List Begun) : List String :=
  s.structs ++ begun.filterMap Begun.name

/-- **Taken names differ**, as far as they can, where `Asked` are the
names that products ask for. -/
structure Differ (Asked : String → Prop) (used : List String) (nextId : Nat)
    (taken : List String) : Prop where
  /-- The name of `main` is remembered. -/
  main : "main" ∈ used
  /-- A name is remembered, and then it is reserved only if it was asked
  for, or it has a number that was used. -/
  given : ∀ name ∈ taken,
    (name ∈ used ∧ name ≠ "main" ∧ (Reserved name → Asked name)) ∨
    ∃ base ∈ handleBases, ∃ i < nextId, name = base ++ toString i
  /-- Only names that are given by number are taken twice, and only if
  they were asked for. -/
  differ : taken.Pairwise fun a b => a = b → IsHandle a ∧ Asked a

section

variable {Asked : String → Prop} {used xs ys : List String} {nextId : Nat}

/-- One more name that differs. -/
theorem Differ.insert (h : Differ Asked used nextId (xs ++ ys)) {name : String}
    {used' : List String} {nextId' : Nat} (hused : used ⊆ used') (hnext : nextId ≤ nextId')
    (hname : (name ∈ used' ∧ name ≠ "main" ∧ (Reserved name → Asked name)) ∨
      ∃ base ∈ handleBases, ∃ i < nextId', name = base ++ toString i)
    (hdiffer : ∀ other ∈ xs ++ ys, name = other → IsHandle name ∧ Asked name) :
    Differ Asked used' nextId' (xs ++ name :: ys) where
  main := hused h.main
  given := by
    intro other hother
    rcases List.mem_cons.mp (List.perm_middle.mem_iff.mp hother) with rfl | hother
    · exact hname
    · refine (h.given other hother).imp (And.imp_left (@hused other)) ?_
      rintro ⟨base, hbase, i, hi, heq⟩
      exact ⟨base, hbase, i, Nat.lt_of_lt_of_le hi hnext, heq⟩
  differ := by
    rw [List.pairwise_middle fun hab heq => heq ▸ hab heq.symm]
    exact List.pairwise_cons.mpr ⟨hdiffer, h.differ⟩

/-- **A new name for a class** differs. It can only be that of a
generator or enumerator, and only if it was asked for. -/
theorem Differ.takeClass (h : Differ Asked used nextId (xs ++ ys)) {name : String}
    (hnew : name ∉ used) (hasked : Reserved name → Asked name) {nextId' : Nat}
    (hnext : nextId ≤ nextId') :
    Differ Asked (used ++ [name]) nextId' (xs ++ name :: ys) := by
  have hmain : name ≠ "main" := fun heq => hnew (heq ▸ h.main)
  refine h.insert (List.subset_append_left _ _) hnext
    (.inl ⟨List.mem_append_right _ (List.mem_singleton_self _), hmain, hasked⟩) ?_
  rintro _ hother rfl
  rcases h.given name hother with ⟨hused, -, -⟩ | ⟨base, hbase, i, -, heq⟩
  · exact absurd hused hnew
  · have hhandle : IsHandle name := ⟨base, hbase, i, heq⟩
    exact ⟨hhandle, hasked (.inr hhandle)⟩

/-- **A new number for a generator or enumerator** differs from the other
numbers. It can only make the name of a class, and only if that was
asked for. -/
theorem Differ.takeHandle (h : Differ Asked used nextId (xs ++ ys)) {base : String}
    (hbase : base ∈ handleBases) :
    Differ Asked used (nextId + 1) (xs ++ (base ++ toString nextId) :: ys) := by
  have hhandle : IsHandle (base ++ toString nextId) := ⟨base, hbase, nextId, rfl⟩
  refine h.insert (List.Subset.refl _) (Nat.le_succ _)
    (.inr ⟨base, hbase, nextId, Nat.lt_succ_self _, rfl⟩) ?_
  intro other hother heq
  rcases h.given other hother with ⟨-, -, hasked⟩ | ⟨base', hbase', i, hi, heq'⟩
  · rw [← heq] at hasked
    exact ⟨hhandle, hasked (.inr hhandle)⟩
  · rw [heq'] at heq
    exact absurd (handle_injective hbase hbase' heq) (Nat.ne_of_gt hi)

end

/-- **Names are told apart** in a program, while some declarations have
begun. -/
structure ToldApart (Asked : String → Prop) (s : Program) (begun : List Begun) : Prop where
  /-- The code of a declaration defines its struct. -/
  defined : ∀ d ∈ s.declarations, Code.structNamesAll d.code = d.structName?.toList
  /-- Classes that have begun took a name, and nothing else did. -/
  begunNames : ∀ b ∈ begun, b.name.isSome = b.node.isClass
  /-- The names taken differ. -/
  taken : Differ Asked s.usedNames s.nextId (s.takenNames begun)

section

variable {Asked : String → Prop} {s : Program} {begun : List Begun}

theorem toldApart_start (workingDir sourceDir : String) (args : RunArgs) :
    ToldApart Asked { start workingDir sourceDir with args } [] :=
  ⟨nofun, nofun, List.mem_singleton_self _, nofun, .nil⟩

/-- **What taking a name for a class does.** The name is new and is
remembered, and it is reserved only if the product asks for it: a name
that ends in a number behind an underscore is never one that generators or
enumerators are given. -/
theorem reserveClass_spec (s : Program) (p : Product) :
    (s.reserveClass p).1 ∉ s.usedNames ∧
      (s.reserveClass p).2.usedNames = s.usedNames ++ [(s.reserveClass p).1] ∧
      s.nextId ≤ (s.reserveClass p).2.nextId ∧
      (Reserved (s.reserveClass p).1 → p.name = some (s.reserveClass p).1) := by
  rw [reserveClass_eq]
  refine ⟨className_not_mem _ _, rfl, Nat.le_add_right _ _, fun h => ?_⟩
  have heq : className s.usedNames (s.classBase p) = s.classBase p := eq_of_reserved_className h
  show p.name = some (className s.usedNames (s.classBase p))
  rw [heq] at h ⊢
  unfold classBase at h ⊢
  cases hname : p.name with
  | some base => rfl
  | none =>
    -- a numbered name of its own is not reserved
    rw [hname] at h
    exact absurd h (not_reserved_append (by decide) (by decide) (by decide) _)

/-- A visit leaves names told apart, if the product of a class asks for
a name that is asked for. -/
theorem ToldApart.visit (h : ToldApart Asked s begun) {n : Node}
    (hn : ∀ name ∈ n.productName?, Asked name) :
    ToldApart Asked (s.visit n).2 (⟨n, (s.visit n).1⟩ :: begun) := by
  have hdefined : ∀ d ∈ (s.visit n).2.declarations,
      Code.structNamesAll d.code = d.structName?.toList := by
    rw [declarations_visit]
    exact h.defined
  cases n with
  | productClass p =>
    refine ⟨hdefined, List.forall_mem_cons.mpr ⟨rfl, h.begunNames⟩, ?_⟩
    obtain ⟨hnew, hused, hnext, hasked⟩ :=
      reserveClass_spec { s with visited := s.visited ++ [.layout p.signature] } p
    have htaken := h.taken.takeClass hnew (fun hr => hn _ (hasked hr)) hnext
    rw [← hused] at htaken
    rw [takenNames, structs, declarations_visit]
    exact htaken
  | generator | enumerator | function =>
    exact ⟨hdefined, List.forall_mem_cons.mpr ⟨rfl, h.begunNames⟩, h.taken⟩

theorem structs_write (s : Program) (n : Node) (reserved : Option String) :
    (s.write n reserved).structs = s.structs ++ (s.declaration n reserved).structName?.toList := by
  rw [structs, declarations_write, List.filterMap_append, List.filterMap_cons]
  cases (s.declaration n reserved).structName? <;> rfl

/-- Writing what was visited last leaves names told apart. -/
theorem ToldApart.write {b : Begun} (h : ToldApart Asked s (b :: begun)) :
    ToldApart Asked (s.write b.node b.name) begun := by
  obtain ⟨hb, hbegun⟩ := List.forall_mem_cons.mp h.begunNames
  have hdefined : ∀ d ∈ (s.write b.node b.name).declarations,
      Code.structNamesAll d.code = d.structName?.toList := by
    rw [declarations_write]
    refine List.forall_mem_append.mpr ⟨h.defined, List.forall_mem_singleton.mpr ?_⟩
    rw [Declaration.structName?, declaration, (closedUnit_codeOf _ _ b.node).structNamesAll_eq]
    split <;> rfl
  refine ⟨hdefined, hbegun, ?_⟩
  rw [takenNames, structs_write]
  obtain ⟨n, name⟩ := b
  cases n with
  | productClass p =>
    -- the name was taken when the class was visited
    obtain ⟨name, rfl⟩ := Option.isSome_iff_exists.mp hb
    rw [List.append_assoc]
    exact h.taken
  | generator g =>
    cases name with
    | some name => cases hb
    | none =>
      rw [List.append_assoc]
      exact h.taken.takeHandle List.mem_cons_self
  | enumerator e =>
    cases name with
    | some name => cases hb
    | none =>
      rw [List.append_assoc]
      exact h.taken.takeHandle (List.mem_cons_of_mem _ List.mem_cons_self)
  | function f =>
    cases name with
    | some name => cases hb
    | none =>
      rw [List.append_assoc]
      exact h.taken

/-- **Steps leave names told apart**, if they are for classes of products
that ask for a name that is asked for. -/
theorem Steps.toldApart {x y : Program × List Begun}
    (h : Steps (fun n => ∀ name ∈ n.productName?, Asked name) x y)
    (hx : ToldApart Asked x.1 x.2) : ToldApart Asked y.1 y.2 := by
  induction h with
  | refl => exact hx
  | tail _ hstep ih =>
    cases hstep with
    | visit hn _ => exact ih.visit hn
    | write _ => exact ih.write

end

/-! ## The names in a source -/

/-- The code of the declarations defines the structs declared. -/
theorem ToldApart.structNamesAll_declarationCode {Asked : String → Prop} {s : Program}
    (h : ToldApart Asked s []) : Code.structNamesAll s.declarationCode = s.structs := by
  have hlist : ∀ ds : List Declaration,
      (∀ d ∈ ds, Code.structNamesAll d.code = d.structName?.toList) →
      Code.structNamesAll (ds.flatMap Declaration.code) = ds.filterMap Declaration.structName? := by
    intro ds hds
    induction ds with
    | nil => exact Code.structNamesAll_nil
    | cons d ds ih =>
      rw [List.forall_mem_cons] at hds
      rw [List.flatMap_cons, Code.structNamesAll_append, hds.1, ih hds.2, List.filterMap_cons]
      cases d.structName? <;> rfl
  exact hlist s.declarations h.defined

/-- No name that is taken is that of `main`, and none that of the integers
unless it was asked for. -/
theorem Differ.ne {Asked : String → Prop} {used taken : List String} {nextId : Nat}
    (h : Differ Asked used nextId taken) {name : String} (hname : name ∈ taken) :
    name ≠ "main" ∧ (name = "int" → Asked name) := by
  rcases h.given name hname with ⟨-, hmain, hasked⟩ | ⟨base, hbase, i, -, rfl⟩
  · exact ⟨hmain, fun hint => hasked (.inl hint)⟩
  · obtain ⟨hint, hmain⟩ := ne_of_underscore_mem
      (underscore_mem_append (underscore_mem_of_mem_handleBases base hbase) (toString i))
    exact ⟨hmain, fun h => absurd h hint⟩

/-- **The names of the structs of a source** differ, and are neither that
of `main` nor that of the integers, except for names that products ask
for: a product called like a generator or enumerator can have a class of
the same name, and a product called like the integers has a class that
is. In particular all is well if no product is called like that. -/
theorem structNames_of_collect (workingDir sourceDir : String) (t : Target) (args : RunArgs)
    (hargs : t.checkArgs args = .ok ()) :
    ∃ s, (start workingDir sourceDir).collect t args = .ok (Code.render (s.sourceCode t), s) ∧
      (∀ name ∈ Code.structNamesAll (s.sourceCode t), name ≠ "main" ∧
        (name = "int" → ∃ p, Node.productClass p ∈ t.calls ∧ p.name = some name)) ∧
      (Code.structNamesAll (s.sourceCode t)).Pairwise (fun a b => a = b →
        IsHandle a ∧ ∃ p, Node.productClass p ∈ t.calls ∧ p.name = some a) ∧
      ((∀ p, Node.productClass p ∈ t.calls → ∀ name ∈ p.name, ¬Reserved name) →
        (Code.structNamesAll (s.sourceCode t)).Nodup ∧
          "int" ∉ Code.structNamesAll (s.sourceCode t)) := by
  let Asked (name : String) : Prop := ∃ p, Node.productClass p ∈ t.calls ∧ p.name = some name
  have hstart : Settled { start workingDir sourceDir with args } [] :=
    settled_start workingDir sourceDir
  have hasked : ∀ c ∈ t.calls, ∀ d ∈ c.calls, ∀ name ∈ d.productName?, Asked name := by
    intro c hc d hd name hname
    rw [t.calls_eq] at hc
    cases d with
    | productClass p => exact ⟨p, t.calls_eq ▸ Node.mem_calls_of_mem_calls hc hd, hname⟩
    | generator | enumerator | function => cases hname
  have hsteps : Steps _ _ (emitAll t.calls { start workingDir sourceDir with args }, []) :=
    (steps_emitAll hstart hasked).1
  have hapart := hsteps.toldApart (toldApart_start workingDir sourceDir args)
  refine ⟨_, collect_eq (settled_start workingDir sourceDir) rfl hargs, ?_⟩
  generalize emitAll t.calls { start workingDir sourceDir with args } = s at hapart
  have hdiffer := hapart.taken
  rw [takenNames, List.filterMap_nil, List.append_nil] at hdiffer
  rw [structNamesAll_sourceCode, hapart.structNamesAll_declarationCode]
  refine ⟨fun name hname => hdiffer.ne hname, hdiffer.differ, fun hfree => ⟨?_, fun hint => ?_⟩⟩
  · refine hdiffer.differ.imp fun hab heq => ?_
    obtain ⟨hhandle, p, hp, hname⟩ := hab heq
    exact hfree p hp _ hname (.inr hhandle)
  · obtain ⟨p, hp, hname⟩ := (hdiffer.ne hint).2 rfl
    exact hfree p hp _ hname (.inl rfl)

/-- The names of the structs for a variable that is given a value. -/
theorem structNames_of_collect_argument :
    let point : Product := ⟨some "Point", [⟨"x", .int, Ty.int.generator, Ty.int.enumerator⟩]⟩
    let t : Target := .generator (.runArgument "at" (.product point))
    let args : RunArgs := [("at", .tuple [.int 3])]
    t.checkArgs args = .ok () ∧
    ∃ s, (start "/" "/src").collect t args = .ok (Code.render (s.sourceCode t), s) ∧
      (Code.structNamesAll (s.sourceCode t)).Nodup := by
  intro point t args
  have hargs : t.checkArgs args = .ok () := by decide +kernel
  obtain ⟨s, hs, -, -, hfree⟩ := structNames_of_collect "/" "/src" t args hargs
  refine ⟨hargs, s, hs, (hfree ?_).1⟩
  intro p hp name hname
  have hpoint : p = point := by
    rcases List.mem_pair.mp hp with h | h
    · exact Node.productClass.inj h
    · cases h
  subst hpoint
  cases hname
  rintro (hint | ⟨base, hbase, i, heq⟩)
  · exact absurd hint (by decide)
  · have hunderscore := underscore_mem_append
      (underscore_mem_of_mem_handleBases base hbase) (toString i)
    rw [← heq] at hunderscore
    exact absurd hunderscore (by decide)

/-- **Names are not always told apart.** A product that is called like
its own field's generator has a class of the same name, and one that is
called like the integers has a class of their name. -/
theorem structNames_of_handle :
    (∃ t s, Made (.target t) ∧ t.checkArgs [] = .ok () ∧
      (start "/" "/src").collect t [] = .ok (Code.render (s.sourceCode t), s) ∧
      Code.structNamesAll (s.sourceCode t) = ["qit_gen0", "qit_gen0", "qit_gen1"] ∧
      ¬(Code.structNamesAll (s.sourceCode t)).Nodup) ∧
    ∃ t s, Made (.target t) ∧ t.checkArgs [] = .ok () ∧
      (start "/" "/src").collect t [] = .ok (Code.render (s.sourceCode t), s) ∧
      "int" ∈ Code.structNamesAll (s.sourceCode t) := by
  let point (name : String) : Product :=
    ⟨some name, [⟨"x", .int, Ty.int.generator, Ty.int.enumerator⟩]⟩
  have hmade : ∀ {name}, Product.ofFields (some name) [(some "x", .int)] = .ok (point name) →
      Made (.target (.generator (Ty.product (point name)).generator)) := fun hp =>
    .generatorTarget (.generator (.ofProduct
      (.ofFields (List.forall_mem_singleton.mpr Made.int) hp)))
  constructor
  · refine ⟨_, _, @hmade "qit_gen0" rfl, rfl, collect_start_eq "/" "/src" rfl, ?_, ?_⟩
    · decide +kernel
    · decide +kernel
  · refine ⟨_, _, @hmade "int" rfl, rfl, collect_start_eq "/" "/src" rfl, ?_⟩
    decide +kernel

end Program

end Specimen
