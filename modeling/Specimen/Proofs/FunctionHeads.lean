import Specimen.Proofs.Declarations
import Specimen.Proofs.Inventory
import Specimen.Proofs.Stubs

/-!
# The head of a function is the same everywhere

The head of an external function is printed in four places: in a source,
behind which its file is included; in the list of a target's
declarations; in the complaint that its file is missing; and in the stub
that is created for it. Only the first is made under run arguments, and
it is made as soon as the function is declared, where the others wait
until the whole target is. The types in a head may be classes, and those
without a name of their own are numbered by a counter that everything
else uses as well. So the question is whether the counter runs the same
way under different arguments, and whether names that were given stay.

Both hold. Arguments change what is written and nothing that is named
(`Program.Alike`), and a name once given stays when more is declared
(`Program.handle_of_isPrefix`). The four texts are therefore the same
(`Program.functionHead_agrees`).
-/

namespace Specimen

namespace Program

/-! ## Functions are declared by their heads -/

theorem functionHead_of_isPrefix {s s' : Program} (h : s.declarations <+: s'.declarations)
    {f : Function} (hf : ∀ m ∈ (Node.function f).mentions, s.declares m.key = true) :
    s'.functionHead f = s.functionHead f :=
  functionHead_congr fun m hm => handle_of_isPrefix h (hf m hm)

/-- **Functions are declared by their heads**: what they mention is
declared, and their code is what the names of now make of them. -/
def Headed (s : Program) : Prop :=
  ∀ d ∈ s.declarations, ∀ f, d.key = .function f →
    (∀ m ∈ (Node.function f).mentions, s.declares m.key = true) ∧
      d.code = s.codeOf f.name (.function f)

/-- What is declared stays headed when more is declared. -/
theorem Headed.of_isPrefix {s s' : Program} (hs : Headed s)
    (h : s.declarations <+: s'.declarations) {d : Declaration} (hd : d ∈ s.declarations)
    {f : Function} (hf : d.key = .function f) :
    (∀ m ∈ (Node.function f).mentions, s'.declares m.key = true) ∧
      d.code = s'.codeOf f.name (.function f) := by
  obtain ⟨hmentions, hcode⟩ := hs d hd f hf
  refine ⟨fun m hm => ?_, ?_⟩
  · obtain ⟨e, he, hsame⟩ := declares_iff.mp (hmentions m hm)
    exact declares_iff.mpr ⟨e, h.subset he, hsame⟩
  · rw [hcode, codeOf, codeOf, functionHead_of_isPrefix h hmentions]

/-- A step leaves a program headed. -/
theorem Step.headed {P : Node → Prop} {x y : Program × List Begun} (h : Step P x y)
    (hx : Headed x.1) : Headed y.1 := by
  intro d hd f hf
  have hprefix : x.1.declarations <+: y.1.declarations := Steps.isPrefix (.single h)
  cases h with
  | visit => exact hx.of_isPrefix hprefix (declarations_visit .. ▸ hd) hf
  | @write s begun b hmentions =>
    rcases List.mem_append.mp (declarations_write .. ▸ hd) with hd | hd
    · exact hx.of_isPrefix hprefix hd hf
    · rw [List.mem_singleton.mp hd] at hf ⊢
      obtain ⟨n, name⟩ := b
      cases n with
      | function g =>
        cases hf
        refine ⟨fun m hm => declares_write.mpr (.inl (hmentions m hm)), ?_⟩
        have hhead : (s.write (.function f) name).functionHead f = s.functionHead f :=
          functionHead_of_isPrefix hprefix hmentions
        show s.codeOf f.name (.function f) = (s.write (.function f) name).codeOf f.name _
        rw [codeOf, codeOf, hhead]
      | productClass | generator | enumerator => cases hf

theorem Steps.headed {P : Node → Prop} {x y : Program × List Begun} (h : Steps P x y)
    (hx : Headed x.1) : Headed y.1 := by
  induction h with
  | refl => exact hx
  | tail _ hstep ih => exact hstep.headed ih

/-! ## The program of a target -/

section

variable (workingDir sourceDir : String) (t : Target)

/-- The program that is declared for a target has its nodes placed in
order. -/
theorem declared_eq : declared workingDir sourceDir t
    = t.calls.foldl place (start workingDir sourceDir) :=
  emitAll_eq (settled_start workingDir sourceDir) t.inOrder_calls

/-- **Functions have the same heads under any arguments**: a head is made
of names, and placing nodes under other arguments gives the same ones. -/
theorem functionHead_declared (args : RunArgs) (f : Function) :
    (declared workingDir sourceDir t).functionHead f =
      (t.calls.foldl place { start workingDir sourceDir with args }).functionHead f := by
  have hstart : Alike (start workingDir sourceDir) { start workingDir sourceDir with args } :=
    ⟨rfl, rfl, rfl, rfl⟩
  rw [declared_eq]
  exact (hstart.foldl_place t.calls).functionHead_eq f

/-- The functions declared are those of the target under any
arguments. -/
theorem functions_foldl_place (args : RunArgs) :
    (t.calls.foldl place { start workingDir sourceDir with args }).functions = t.functions := by
  rw [t.functions_eq]
  exact functions_eq_of_map_key (map_key_foldl_place rfl rfl t.calls)

variable {t}

/-- A target calls for the functions it has. -/
theorem function_mem_calls {f : Function} (hf : f ∈ t.functions) : Node.function f ∈ t.calls := by
  rw [t.functions_eq] at hf
  obtain ⟨n, hn, hnf⟩ := List.mem_filterMap.mp hf
  cases n with
  | function g =>
    cases hnf
    exact newNodes_subset t.calls hn
  | productClass | generator | enumerator => cases hnf

/-- Asking for the head of a target's function declares nothing more. -/
theorem askFunctionHead_declared {f : Function} (hf : f ∈ t.functions) :
    (declared workingDir sourceDir t).askFunctionHead f =
      ((declared workingDir sourceDir t).functionHead f, declared workingDir sourceDir t) := by
  obtain ⟨-, hdeclares⟩ : Steps (fun _ => True) _ (declared workingDir sourceDir t, []) ∧ _ :=
    steps_emitAll (settled_start workingDir sourceDir) fun _ _ _ _ => trivial
  have hmentions : ∀ m ∈ (Node.function f).mentions,
      (declared workingDir sourceDir t).declares m.key = true := fun m hm => by
    refine hdeclares m ?_
    have hf := function_mem_calls hf
    rw [t.calls_eq] at hf ⊢
    exact Node.mem_calls_of_mem_calls hf
      (Node.mem_calls.mpr (.inl (Node.mem_below_of_mem_mentions hm)))
  rw [askFunctionHead, requireAll_of_declares hmentions]

/-- **An external function is declared by its head**, in the program of a
target under any arguments. -/
theorem exists_prototype (args : RunArgs) {f : Function} (hf : f ∈ t.externalFunctions) :
    let s := t.calls.foldl place { start workingDir sourceDir with args }
    ∃ before d after, s.declarations = before ++ d :: after ∧ d.key = .function f ∧
      d.code = Block.prototype (s.functionHead f) := by
  intro s
  obtain ⟨hf, hexternal⟩ := List.mem_filter.mp hf
  have hfunctions : s.functions = t.functions := functions_foldl_place _ _ t args
  have hsettled : Settled { start workingDir sourceDir with args } [] :=
    settled_start workingDir sourceDir
  have hsteps : Steps (fun _ => True) ({ start workingDir sourceDir with args }, []) (s, []) := by
    have hall : Steps (fun _ => True) (_, []) (emitAll t.calls _, []) :=
      (steps_emitAll hsettled fun _ _ _ _ => trivial).1
    rwa [emitAll_eq hsettled t.inOrder_calls] at hall
  have hheaded : Headed s := hsteps.headed nofun
  rw [← hfunctions, functions] at hf
  obtain ⟨d, hd, hdf⟩ := List.mem_filterMap.mp hf
  obtain ⟨before, after, hsplit⟩ := List.append_of_mem hd
  have hkey : d.key = .function f := by
    cases hkey : d.key with
    | function g =>
      rw [hkey] at hdf
      exact congrArg _ (Option.some.inj hdf)
    | layout | generator | enumerator =>
      rw [hkey] at hdf
      cases hdf
  refine ⟨before, d, after, hsplit, hkey, ?_⟩
  rw [(hheaded d hd f hkey).2, codeOf]
  unfold Function.isExternal at hexternal
  split
  next hbody =>
    rw [hbody] at hexternal
    cases hexternal
  next => rfl

end

/-! ## The four texts -/

/-- What a stub has behind the head of its function. -/
def stubBody : String := " \x7b\n  return \x7b\x7d;\n\x7d\n\n"

/-- The line of a prototype, and the empty line behind it. -/
theorem render_prototype (head : String) :
    Code.render (Block.prototype head) = head ++ ";\n\n" := by
  show ("" ++ (head ++ ";") ++ "\n") ++ (("" ++ "" ++ "\n") ++ "") = _
  rw [String.empty_append, String.append_assoc, String.append_assoc]
  rfl

open Run in
/-- **The head of an external function is the same everywhere**: where the
source declares it, in the list of a target's declarations, in the
complaint about missing files, and in a stub. The first is made by a
program that has the run arguments and the others by one without them; but
both place the target's nodes in one order, and the names in a head are
given by this order alone. -/
theorem functionHead_agrees (c : Config) (t : Target) (args : RunArgs) (h : Host)
    (hargs : t.checkArgs args = .ok ()) :
    let s₀ := declared h.workingDir c.sourceDir t
    ∃ s, (start h.workingDir c.sourceDir).collect t args = .ok (Code.render (s.sourceCode t), s) ∧
      (∀ f ∈ t.externalFunctions, ∃ before d after,
        s.declarations = before ++ d :: after ∧ d.key = .function f ∧
          Code.render (s.sourceCode t) = Code.render (preamble ++ before.flatMap Declaration.code)
            ++ (s.functionHead f ++ ";\n\n")
            ++ Code.render (after.flatMap Declaration.code ++ includeCode s.includes
              ++ [mainCode t (s.typeName t.elementType) (s.handle t.node.key)])) ∧
      (∀ f ∈ t.externalFunctions, s₀.askFunctionHead f = (s.functionHead f, s₀)) ∧
      t.declarations h.workingDir c.sourceDir = t.externalFunctions.map s.functionHead ∧
      (∀ paths heads h', (checkFunctions c t).run h
          = (.error (.error (.missingFiles paths heads)), h') →
        heads = ((missingFiles c t h).flatMap FunctionFile.functions).map s.functionHead) ∧
      (c.autoCreateFiles = true →
        (checkFunctions c t).run h = ((missingFiles c t h).forM (createStubs s₀)).run h) ∧
      ∀ file h₁ h₂, (createStubs s₀ file).run h₁ = (.ok (), h₂) →
        h₂.tree.fileBytes h₂.here file.path = .ok (utf8Bytes
          (String.join (file.functions.map fun f => s.functionHead f ++ stubBody))) := by
  intro s₀
  refine ⟨_, collect_start_eq h.workingDir c.sourceDir hargs, ?_⟩
  have hhead : ∀ f, s₀.functionHead f = _ := functionHead_declared h.workingDir c.sourceDir t args
  have hprototype := fun f => @exists_prototype h.workingDir c.sourceDir t args f
  generalize t.calls.foldl place { start h.workingDir c.sourceDir with args } = s at hhead hprototype
  have hheads : s₀.functionHead = s.functionHead := funext hhead
  refine ⟨fun f hf => ?_, fun f hf => ?_, ?_, fun paths heads h' hrun => ?_, fun hauto => ?_,
    fun file h₁ h₂ hrun => ?_⟩
  · obtain ⟨before, d, after, hsplit, hkey, hcode⟩ := hprototype f hf
    refine ⟨before, d, after, hsplit, hkey, ?_⟩
    have hcodes : s.declarationCode = before.flatMap Declaration.code
        ++ (Block.prototype (s.functionHead f) ++ after.flatMap Declaration.code) := by
      rw [declarationCode, hsplit, List.flatMap_append, List.flatMap_cons, hcode]
    rw [sourceCode, hcodes, ← render_prototype, ← Code.render_append, ← Code.render_append]
    simp only [List.append_assoc]
  · rw [← hhead]
    exact askFunctionHead_declared _ _ (List.mem_filter.mp hf).1
  · rw [Target.declarations]
    exact congrArg (t.externalFunctions.map ·) hheads
  · rw [run_checkFunctions] at hrun
    split at hrun
    next => cases hrun
    split at hrun
    next =>
      -- creating stubs fails for other reasons
      obtain ⟨-, ⟨hr, -⟩ | ⟨attempt, fault, hr⟩⟩ := forM_createStubs hrun <;> cases hr
    next =>
      cases hrun
      rw [List.map_flatMap, ← hheads]
  · rw [run_checkFunctions, if_pos hauto]
    split
    next hempty =>
      rw [List.isEmpty_iff.mp hempty]
      rfl
    next => rfl
  · obtain ⟨-, ⟨-, place, hfind⟩ | ⟨attempt, fault, hr⟩⟩ := createStubs_spec hrun
    · rw [FileTree.fileBytes, hfind, ← hheads]
      rfl
    · cases hr

/-- A function of a product without a name, called with an argument of
the run: the product's class has its number in each of the four. -/
theorem functionHead_agrees_unnamed :
    let point : Product := ⟨none, [⟨"x", .int, Ty.int.generator, Ty.int.enumerator⟩]⟩
    let f : Function := ⟨"f", .int, [⟨"p", .product point⟩], .external "f.cpp"⟩
    let t : Target := .generator (.call f [.runArgument "at" (.product point)])
    let args : RunArgs := [("at", .tuple [.int 3])]
    let c : Config := { Config.standard with sourceDir := "/src" }
    let h : Host := ⟨[], "/", [], fun _ _ => .error .notFound, fun _ => none, 0, 0, [], [], [], []⟩
    let head := "int f(const qit_Product0 &p)"
    t.checkArgs args = .ok () ∧
    t.declarations "/" "/src" = [head] ∧
    (Run.checkFunctions c t).run h
      = (.error (.error (.missingFiles ["/src/f.cpp"] [head])), h) ∧
    ∃ s, (start "/" "/src").collect t args = .ok (Code.render (s.sourceCode t), s) ∧
      s.functionHead f = head := by
  intro point f t args c h head
  have hargs : t.checkArgs args = .ok () := by decide +kernel
  have hpath : f.sourcePath? "/" "/src" = some "/src/f.cpp" := by decide +kernel
  have hfiles : t.functionFiles "/" "/src" = [⟨"/src/f.cpp", [f]⟩] := by
    have hlisted : t.externalFunctions = [f] := rfl
    simp only [Target.functionFiles, hlisted, List.foldl_cons, List.foldl_nil, hpath]
    rfl
  have hdeclarations : t.declarations "/" "/src" = [head] := by decide +kernel
  obtain ⟨s, hs, -, -, hagree, -⟩ := functionHead_agrees c t args h hargs
  have hhead : [s.functionHead f] = [head] := by
    rw [← hdeclarations]
    exact hagree.symm
  refine ⟨hargs, hdeclarations, ?_, s, hs, List.singleton_inj.mp hhead⟩
  have hmissing : Run.missingFiles c t h = [⟨"/src/f.cpp", [f]⟩] := by
    have hfile : h.tree.isFile h.here "/src/f.cpp" = false := by decide +kernel
    show (t.functionFiles "/" "/src").filter (fun file => !h.tree.isFile h.here file.path) = _
    rw [hfiles, List.filter_cons, hfile]
    rfl
  rw [Run.run_checkFunctions, hmissing, ← hdeclarations]
  rfl

end Program
end Specimen
