import Specimen.Description.Build
import Specimen.Proofs.Constructors

/-!
# Whatever is made is well-formed

Objects are made from each other by the checked constructors, in any
order and as often as one likes. What can be made this way is `Made`,
with one rule for each operation. That all of it is well-formed is
`Made.wellFormed`: each operation keeps it so, and there is nothing
else.

A run description is no other way of making objects. It says which
operations to call, so whatever target it describes is made
(`Description.made_of_buildTarget`), and the objects inside it can be
used further like any others.
-/

namespace Specimen

/-! ## Objects and how they are made -/

/-- **An object** of any kind. -/
inductive Object where
  /-- A type. -/
  | ty (t : Ty)
  /-- A product. -/
  | product (p : Product)
  /-- A derived product. -/
  | derived (d : Derived)
  /-- A generator. -/
  | generator (g : Generator)
  /-- An enumerator. -/
  | enumerator (e : Enumerator)
  /-- A function. -/
  | function (f : Function)
  /-- A target. -/
  | target (t : Target)

/-- Well-formed targets. -/
def Target.WellFormed : Target → Prop
  | .generator g => g.WellFormed
  | .enumerator e => e.WellFormed

/-- **Well-formed objects.** -/
def Object.WellFormed : Object → Prop
  | .ty t => t.WellFormed
  | .product p => p.WellFormed
  | .derived d => d.WellFormed
  | .generator g => g.WellFormed
  | .enumerator e => e.WellFormed
  | .function f => f.WellFormed
  | .target t => t.WellFormed

/-- **What can be made** by the operations on objects. An operation that
refuses what it is given makes nothing, and leaves what there is. -/
inductive Made : Object → Prop where
  -- types
  | int : Made (.ty .int)
  | range {start stop : Int32} {t : Ty} (h : Ty.ofRange start stop = .ok t) : Made (.ty t)
  | values {ty t : Ty} {items : List Value} (hty : Made (.ty ty))
      (h : ty.ofValues items = .ok t) : Made (.ty t)
  | ofProduct {p : Product} (hp : Made (.product p)) : Made (.ty (.product p))
  | ofDerived {d : Derived} (hd : Made (.derived d)) : Made (.ty (.derived d))
  -- products
  | ofFields {name : Option String} {fields : List (Option String × Ty)} {p : Product}
      (hfields : ∀ f ∈ fields, Made (.ty f.2)) (h : Product.ofFields name fields = .ok p) :
      Made (.product p)
  | tuple {types : List Ty} (htypes : ∀ t ∈ types, Made (.ty t)) :
      Made (.product (Product.tuple types))
  | combine {p : Product} {ty : Ty} (hp : Made (.product p)) (hty : Made (.ty ty)) :
      Made (.product (p.combine ty))
  | mul {left right : Ty} (hleft : Made (.ty left)) (hright : Made (.ty right)) :
      Made (.product (left.mul right))
  | set {p q : Product} {field : String} {ty : Ty} (hp : Made (.product p))
      (hty : Made (.ty ty)) (h : p.set field ty = .ok q) : Made (.product q)
  | setGenerator {p q : Product} {field : String} {g : Generator} (hp : Made (.product p))
      (hg : Made (.generator g)) (h : p.setGenerator field g = .ok q) : Made (.product q)
  | setEnumerator {p q : Product} {field : String} {e : Enumerator} (hp : Made (.product p))
      (he : Made (.enumerator e)) (h : p.setEnumerator field e = .ok q) : Made (.product q)
  -- derived products
  | derive {p : Product} (hp : Made (.product p)) : Made (.derived p.derive)
  | deriveAgain {d : Derived} (hd : Made (.derived d)) : Made (.derived d.derive)
  | override {d d' : Derived} {field : String} {ty : Ty} (hd : Made (.derived d))
      (hty : Made (.ty ty)) (h : d.set field ty = .ok d') : Made (.derived d')
  | overrideGenerator {d d' : Derived} {field : String} {g : Generator}
      (hd : Made (.derived d)) (hg : Made (.generator g))
      (h : d.setGenerator field g = .ok d') : Made (.derived d')
  | overrideEnumerator {d d' : Derived} {field : String} {e : Enumerator}
      (hd : Made (.derived d)) (he : Made (.enumerator e))
      (h : d.setEnumerator field e = .ok d') : Made (.derived d')
  -- generators and enumerators
  | generator {ty : Ty} (hty : Made (.ty ty)) : Made (.generator ty.generator)
  | enumerator {ty : Ty} (hty : Made (.ty ty)) : Made (.enumerator ty.enumerator)
  | bounds {min max : Int32} {g : Generator} (h : Generator.ofBounds min max = .ok g) :
      Made (.generator g)
  | runArgument {name : String} {ty : Ty} {g : Generator} (hty : Made (.ty ty))
      (h : Generator.ofVariable name ty = .ok g) : Made (.generator g)
  | once {g : Generator} (hg : Made (.generator g)) : Made (.enumerator (.once g))
  | generated {g : Generator} (hg : Made (.generator g)) : Made (.ty g.outputType)
  | enumerated {e : Enumerator} (he : Made (.enumerator e)) : Made (.ty e.outputType)
  -- functions
  | function {name : String} {returns : Ty} {body : FunctionBody} {f : Function}
      (hreturns : Made (.ty returns)) (h : Function.ofBody name returns body = .ok f) :
      Made (.function f)
  | param {f f' : Function} {name : String} {ty : Ty} (hf : Made (.function f))
      (hty : Made (.ty ty)) (h : f.addParam name ty = .ok f') : Made (.function f')
  | call {f : Function} {args : List Generator} {g : Generator} (hf : Made (.function f))
      (hargs : ∀ g ∈ args, Made (.generator g)) (h : f.call args = .ok g) :
      Made (.generator g)
  -- targets
  | generatorTarget {g : Generator} (hg : Made (.generator g)) :
      Made (.target (.generator g))
  | enumeratorTarget {e : Enumerator} (he : Made (.enumerator e)) :
      Made (.target (.enumerator e))
  | targetGenerator {g : Generator} (h : Made (.target (.generator g))) : Made (.generator g)
  | targetEnumerator {e : Enumerator} (h : Made (.target (.enumerator e))) :
      Made (.enumerator e)

/-- **Whatever is made is well-formed**, by induction on how it was
made. -/
theorem Made.wellFormed {o : Object} (ho : Made o) : o.WellFormed := by
  induction ho with
  | int => exact Ty.WellFormed.int
  | range h => exact Ty.wellFormed_of_ofRange h
  | values _ h hty => exact hty.ofValues h
  | ofProduct _ hp => exact Ty.WellFormed.product hp
  | ofDerived _ hd => exact Ty.WellFormed.derived hd
  | ofFields _ h hfields => exact Product.wellFormed_of_ofFields hfields h
  | tuple _ htypes => exact Product.wellFormed_tuple htypes
  | combine _ _ hp hty => exact hp.combine hty
  | mul _ _ hleft hright => exact hleft.mul hright
  | set _ _ h hp hty => exact hp.set hty h
  | setGenerator _ _ h hp hg => exact hp.setGenerator hg h
  | setEnumerator _ _ h hp he => exact hp.setEnumerator he h
  | derive _ hp => exact hp.derive
  | deriveAgain _ hd => exact hd.derive
  | override _ _ h hd hty => exact hd.set hty h
  | overrideGenerator _ _ h hd hg => exact hd.setGenerator hg h
  | overrideEnumerator _ _ h hd he => exact hd.setEnumerator he h
  | generator _ hty => exact hty.generator
  | enumerator _ hty => exact hty.enumerator
  | bounds h => exact Generator.wellFormed_of_ofBounds h
  | runArgument _ h hty => exact hty.ofVariable h
  | once _ hg => exact Enumerator.WellFormed.once hg
  | generated _ hg => exact hg.outputType
  | enumerated _ he => exact he.outputType
  | function _ h hreturns => exact Function.wellFormed_of_ofBody hreturns h
  | param _ _ h hf hty => exact hf.addParam hty h
  | call _ _ h hf hargs => exact hf.call hargs h
  | generatorTarget _ hg => exact hg
  | enumeratorTarget _ he => exact he
  | targetGenerator _ hg => exact hg
  | targetEnumerator _ he => exact he

/-! ## What is described is made -/

namespace Description

mutual

/-- A described type is made. -/
theorem TypeTerm.made_of_build : (term : TypeTerm) → (ty : Ty) → term.build = .ok ty →
    Made (.ty ty)
  | .int, ty, h => by
    rw [TypeTerm.build, pure_eq_ok] at h
    exact h ▸ .int
  | .range start stop, ty, h => by
    rw [TypeTerm.build, liftError_eq_ok] at h
    exact .range h
  | .values of items, ty, h => by
    rw [TypeTerm.build, bind_eq_ok] at h
    obtain ⟨values, -, h⟩ := h
    obtain ⟨of', hof, h⟩ := bind_eq_ok.mp h
    exact .values (of.made_of_build of' hof) (liftError_eq_ok.mp h)
  | .product name fields, ty, h => by
    rw [TypeTerm.build, bind_eq_ok] at h
    obtain ⟨types, htypes, h⟩ := h
    obtain ⟨p, hp, h⟩ := bind_eq_ok.mp h
    obtain ⟨q, hq, rfl⟩ := map_eq_ok.mp h
    -- the product is made without overrides, then they are set one by one
    have hmade := Made.ofFields (made_of_buildFieldTypes fields types htypes)
      (liftError_eq_ok.mp hp)
    exact .ofProduct (made_of_overrideFields fields p q p.names hmade hq)

/-- The types of described fields are made. -/
theorem made_of_buildFieldTypes : (fields : List FieldTerm) →
    (types : List (Option String × Ty)) → buildFieldTypes fields = .ok types →
    ∀ f ∈ types, Made (.ty f.2)
  | [], types, h => by
    rw [buildFieldTypes, pure_eq_ok] at h
    exact h ▸ nofun
  | ⟨name, term, _, _⟩ :: rest, types, h => by
    rw [buildFieldTypes, bind_eq_ok] at h
    obtain ⟨ty, hty, h⟩ := h
    obtain ⟨types', htypes, h⟩ := bind_eq_ok.mp h
    rw [← pure_eq_ok.mp h, List.forall_mem_cons]
    exact ⟨term.made_of_build ty hty, made_of_buildFieldTypes rest types' htypes⟩

/-- A product with described overrides is made. -/
theorem made_of_overrideFields : (fields : List FieldTerm) → (p q : Product) →
    (names : List String) → Made (.product p) → overrideFields p fields names = .ok q →
    Made (.product q)
  | [], p, q, names, hp, h => by
    rw [overrideFields, pure_eq_ok] at h
    · exact h ▸ hp
    · exact nofun
  | _ :: _, p, q, [], hp, h => by
    rw [overrideFields, pure_eq_ok] at h
    · exact h ▸ hp
    · exact nofun
  | ⟨_, _, generator, enumerator⟩ :: rest, p, q, name :: names, hp, h => by
    rw [overrideFields, bind_eq_ok] at h
    obtain ⟨p', hp', h⟩ := h
    obtain ⟨p'', hp'', h⟩ := bind_eq_ok.mp h
    have hgen := made_of_setGeneratorTerm generator p p' name hp hp'
    have henum := made_of_setEnumeratorTerm enumerator p' p'' name hgen hp''
    exact made_of_overrideFields rest p'' q names henum h

/-- A product with a described generator in a field is made. -/
theorem made_of_setGeneratorTerm : (term : Option GeneratorTerm) → (p q : Product) →
    (field : String) → Made (.product p) → setGeneratorTerm p field term = .ok q →
    Made (.product q)
  | none, p, q, field, hp, h => by
    rw [setGeneratorTerm, pure_eq_ok] at h
    exact h ▸ hp
  | some term, p, q, field, hp, h => by
    rw [setGeneratorTerm, bind_eq_ok] at h
    obtain ⟨g, hg, h⟩ := h
    exact .setGenerator hp (term.made_of_build g hg) (liftError_eq_ok.mp h)

/-- A product with a described enumerator in a field is made. -/
theorem made_of_setEnumeratorTerm : (term : Option EnumeratorTerm) → (p q : Product) →
    (field : String) → Made (.product p) → setEnumeratorTerm p field term = .ok q →
    Made (.product q)
  | none, p, q, field, hp, h => by
    rw [setEnumeratorTerm, pure_eq_ok] at h
    exact h ▸ hp
  | some term, p, q, field, hp, h => by
    rw [setEnumeratorTerm, bind_eq_ok] at h
    obtain ⟨e, he, h⟩ := h
    exact .setEnumerator hp (term.made_of_build e he) (liftError_eq_ok.mp h)

/-- A described generator is made. -/
theorem GeneratorTerm.made_of_build : (term : GeneratorTerm) → (g : Generator) →
    term.build = .ok g → Made (.generator g)
  | .ofType term, g, h => by
    rw [GeneratorTerm.build, map_eq_ok] at h
    obtain ⟨ty, hty, rfl⟩ := h
    exact .generator (term.made_of_build ty hty)
  | .uniform min max, g, h => by
    rw [GeneratorTerm.build, liftError_eq_ok] at h
    exact .bounds h
  | .runArgument name term, g, h => by
    rw [GeneratorTerm.build, bind_eq_ok] at h
    obtain ⟨ty, hty, h⟩ := h
    exact .runArgument (term.made_of_build ty hty) (liftError_eq_ok.mp h)
  | .call function args, g, h => by
    rw [GeneratorTerm.build, bind_eq_ok] at h
    obtain ⟨gs, hgs, h⟩ := h
    obtain ⟨f, hf, h⟩ := bind_eq_ok.mp h
    exact .call (function.made_of_build f hf) (made_of_buildGenerators args gs hgs)
      (liftError_eq_ok.mp h)

/-- Described generators are made. -/
theorem made_of_buildGenerators : (terms : List GeneratorTerm) → (gs : List Generator) →
    buildGenerators terms = .ok gs → ∀ g ∈ gs, Made (.generator g)
  | [], gs, h => by
    rw [buildGenerators, pure_eq_ok] at h
    exact h ▸ nofun
  | term :: rest, gs, h => by
    rw [buildGenerators, bind_eq_ok] at h
    obtain ⟨g, hg, h⟩ := h
    obtain ⟨gs', hgs, h⟩ := bind_eq_ok.mp h
    rw [← pure_eq_ok.mp h, List.forall_mem_cons]
    exact ⟨term.made_of_build g hg, made_of_buildGenerators rest gs' hgs⟩

/-- A described enumerator is made. -/
theorem EnumeratorTerm.made_of_build : (term : EnumeratorTerm) → (e : Enumerator) →
    term.build = .ok e → Made (.enumerator e)
  | .ofType term, e, h => by
    rw [EnumeratorTerm.build, map_eq_ok] at h
    obtain ⟨ty, hty, rfl⟩ := h
    exact .enumerator (term.made_of_build ty hty)
  | .once term, e, h => by
    rw [EnumeratorTerm.build, map_eq_ok] at h
    obtain ⟨g, hg, rfl⟩ := h
    exact .once (term.made_of_build g hg)

/-- A described function is made. -/
theorem FunctionTerm.made_of_build : (term : FunctionTerm) → (f : Function) →
    term.build = .ok f → Made (.function f)
  | ⟨name, returns, params, file, body⟩, f, h => by
    rw [FunctionTerm.build, bind_eq_ok] at h
    obtain ⟨ty, hty, h⟩ := h
    obtain ⟨b, -, h⟩ := bind_eq_ok.mp h
    obtain ⟨f', hf', h⟩ := bind_eq_ok.mp h
    have hmade := Made.function (returns.made_of_build ty hty) (liftError_eq_ok.mp hf')
    exact made_of_buildParams params f' f hmade h

/-- A function with described parameters is made. -/
theorem made_of_buildParams : (params : List ParamTerm) → (f f' : Function) →
    Made (.function f) → buildParams f params = .ok f' → Made (.function f')
  | [], f, f', hf, h => by
    rw [buildParams, pure_eq_ok] at h
    exact h ▸ hf
  | ⟨name, term⟩ :: rest, f, f', hf, h => by
    rw [buildParams, bind_eq_ok] at h
    obtain ⟨ty, hty, h⟩ := h
    obtain ⟨f'', hf'', h⟩ := bind_eq_ok.mp h
    have hparam := Made.param hf (term.made_of_build ty hty) (liftError_eq_ok.mp hf'')
    exact made_of_buildParams rest f'' f' hparam h

end

/-- **A described target is made.** -/
theorem made_of_buildTarget {d : Description} {t : Target} (h : d.buildTarget = .ok t) :
    Made (.target t) := by
  unfold buildTarget at h
  cases hterm : d.target with
  | generator term =>
    rw [hterm] at h
    obtain ⟨g, hg, rfl⟩ := map_eq_ok.mp h
    exact .generatorTarget (term.made_of_build g hg)
  | enumerator term =>
    rw [hterm] at h
    obtain ⟨e, he, rfl⟩ := map_eq_ok.mp h
    exact .enumeratorTarget (term.made_of_build e he)

end Description

/-! ## The invariant -/

/-- **Well-formedness is an invariant.** Whatever is made is well-formed,
what is described is made, and a field has a generator and an enumerator
in a product, or in a product derived from it, exactly when it is one of
the product's fields. Names are checked when they are given, and overrides
when they are made, so nothing that is refused has to be looked for later.
-/
theorem Made.invariant :
    (∀ o : Object, Made o → o.WellFormed) ∧
    (∀ (d : Description) (t : Target), d.buildTarget = .ok t →
      Made (.target t) ∧ t.WellFormed) ∧
    (∀ (p : Product) (name : String),
      ((∃ g, p.getGenerator name = .ok g) ↔ name ∈ p.names) ∧
      ((∃ e, p.getEnumerator name = .ok e) ↔ name ∈ p.names)) ∧
    (∀ (d : Derived) (name : String), Made (.derived d) →
      ((∃ g, d.getGenerator name = .ok g) ↔ name ∈ d.basic.names) ∧
      ((∃ e, d.getEnumerator name = .ok e) ↔ name ∈ d.basic.names)) := by
  refine ⟨fun o ho => ho.wellFormed, fun d t h => ?_, fun p name => ?_, fun d name hd => ?_⟩
  · have hmade := Description.made_of_buildTarget h
    exact ⟨hmade, hmade.wellFormed⟩
  · exact ⟨Product.exists_getGenerator_iff, Product.exists_getEnumerator_iff⟩
  · have hwell : d.WellFormed := hd.wellFormed
    exact ⟨hwell.exists_getGenerator_iff, hwell.exists_getEnumerator_iff⟩

/-- The second of two integers restricted to a range, and a described
generator of a product with one field of its own. -/
theorem Made.invariant_override :
    (∃ r d, Ty.ofRange 0 3 = .ok r ∧
      (Ty.int.mul .int).derive.set "_v1" r = .ok d ∧ d.WellFormed ∧
      ∃ g, d.getGenerator "_v1" = .ok g) ∧
    ∃ t, (Description.mk (.generator (.ofType (.product (some "P")
        [⟨some "x", .int, some (.uniform 1 6), none⟩]))) []).buildTarget = .ok t ∧
      t.WellFormed := by
  obtain ⟨hwell, hdescribed, -, hfields⟩ := Made.invariant
  constructor
  · have hr : Ty.ofRange 0 3 = .ok (.range ⟨0, 3⟩) := rfl
    obtain ⟨d, hd, hbasic⟩ : ∃ d, (Ty.int.mul .int).derive.set "_v1" (.range ⟨0, 3⟩) = .ok d ∧
        d.basic.names = ["_v0", "_v1"] := ⟨_, rfl, rfl⟩
    have hmade : Made (.derived d) := .override (.derive (.mul .int .int)) (.range hr) hd
    refine ⟨_, d, hr, hd, hwell _ hmade, (hfields d "_v1" hmade).1.mpr ?_⟩
    rw [hbasic]
    exact List.mem_cons_of_mem _ List.mem_cons_self
  · obtain ⟨t, ht⟩ : ∃ t, (Description.mk (.generator (.ofType (.product (some "P")
        [⟨some "x", .int, some (.uniform 1 6), none⟩]))) []).buildTarget = .ok t := ⟨_, rfl⟩
    exact ⟨t, ht, (hdescribed _ t ht).2⟩

end Specimen
