import Mathlib.Data.List.Nodup
import Specimen.Proofs.Names
import Specimen.Schema.Checked

/-!
# Well-formed types, generators and enumerators

The data of `Schema/Basic` is plain, so it has values that mean nothing:
a range without elements, a product with two fields of one name, an
override of a field that is not there. **Well-formed** objects are those
that mean something, with everything inside them. The notion is one for
all kinds of objects, because they contain each other: a field of a
product is well-formed only if the generator it takes its value from is.

What makes an object well-formed beyond its parts is that names are
identifiers and distinct where they have to tell fields or parameters
apart, and that signatures agree wherever the values of one object end
up in another: an override in its field, a part of a generator in its
field, an argument in its parameter.

A well-formed type has a well-formed generator and enumerator
(`Ty.WellFormed.generator`, `Ty.WellFormed.enumerator`). For a derived
product this takes the whole chain of its ancestors: every field of the
basic product is found by someone on the chain, so no part is missing.
-/

namespace Specimen

/-! ## The notion -/

/-- **Overrides fit** the fields of a product: they are a table, every
name is that of a field, and what is yielded has the field's
signature. -/
structure OverridesFit {α : Type} (fields : List Field) (outputType : α → Ty)
    (overrides : NameTable α) : Prop where
  /-- No field is overridden twice, and the names are in order. -/
  sorted : overrides.Pairwise fun d e => d.1 < e.1
  /-- What is overridden is a field of the same signature. -/
  fits : ∀ e ∈ overrides, ∃ f ∈ fields, f.name = e.1 ∧
    (outputType e.2).signature = f.ty.signature

mutual

/-- **Well-formed types.** -/
inductive Ty.WellFormed : Ty → Prop where
  | int : Ty.WellFormed .int
  | range {r : Range} (nonempty : r.start < r.stop) : Ty.WellFormed (.range r)
  | values {v : Values} (hv : Values.WellFormed v) : Ty.WellFormed (.values v)
  | product {p : Product} (hp : Product.WellFormed p) : Ty.WellFormed (.product p)
  | derived {d : Derived} (hd : Derived.WellFormed d) : Ty.WellFormed (.derived d)

/-- Well-formed lists of values: at least one, and all of the type's
layout. -/
inductive Values.WellFormed : Values → Prop where
  | intro {v : Values} (ty : Ty.WellFormed v.ty) (nonempty : v.items ≠ [])
      (accepted : ∀ x ∈ v.items, v.ty.accepts x = true) : Values.WellFormed v

/-- **Well-formed products**: the fields are told apart by their
names. -/
inductive Product.WellFormed : Product → Prop where
  | intro {p : Product} (name : p.name.all isIdentifier = true)
      (fields : ∀ f ∈ p.fields, Field.WellFormed f) (distinct : p.names.Nodup) :
      Product.WellFormed p

/-- Well-formed fields: what is generated or enumerated has the field's
signature. -/
inductive Field.WellFormed : Field → Prop where
  | intro {f : Field} (name : isIdentifier f.name = true) (ty : Ty.WellFormed f.ty)
      (generator : Generator.WellFormed f.generator)
      (enumerator : Enumerator.WellFormed f.enumerator)
      (generated : f.generator.outputType.signature = f.ty.signature)
      (enumerated : f.enumerator.outputType.signature = f.ty.signature) : Field.WellFormed f

/-- **Well-formed derived products**: the overrides fit the fields of
the product at the root. -/
inductive Derived.WellFormed : Derived → Prop where
  | intro {d : Derived} (parent : Parent.WellFormed d.parent)
      (generators : ∀ e ∈ d.generators, Generator.WellFormed e.2)
      (enumerators : ∀ e ∈ d.enumerators, Enumerator.WellFormed e.2)
      (generatorsFit : OverridesFit d.basic.fields Generator.outputType d.generators)
      (enumeratorsFit : OverridesFit d.basic.fields Enumerator.outputType d.enumerators) :
      Derived.WellFormed d

/-- Well-formed parents. -/
inductive Parent.WellFormed : Parent → Prop where
  | product {p : Product} (hp : Product.WellFormed p) : Parent.WellFormed (.product p)
  | derived {d : Derived} (hd : Derived.WellFormed d) : Parent.WellFormed (.derived d)

/-- **Well-formed generators**: a part for each field of a product and an
argument for each parameter of a function, of the same signature. -/
inductive Generator.WellFormed : Generator → Prop where
  | uniform {min max : Int32} (ordered : min ≤ max) : Generator.WellFormed (.uniform min max)
  | values {v : Values} (hv : Values.WellFormed v) : Generator.WellFormed (.values v)
  | product {p : Product} {parts : List Generator} (hp : Product.WellFormed p)
      (hparts : ∀ g ∈ parts, Generator.WellFormed g)
      (fit : parts.map (fun g => g.outputType.signature)
        = p.fields.map fun f => f.ty.signature) :
      Generator.WellFormed (.product p parts)
  | call {f : Function} {args : List Generator} (hf : Function.WellFormed f)
      (hargs : ∀ g ∈ args, Generator.WellFormed g)
      (fit : args.map (fun g => g.outputType.signature)
        = f.params.map fun p => p.ty.signature) :
      Generator.WellFormed (.call f args)
  | runArgument {name : String} {ty : Ty} (hname : isIdentifier name = true)
      (hty : Ty.WellFormed ty) : Generator.WellFormed (.runArgument name ty)

/-- **Well-formed enumerators**: a part for each field of a product, of
the same signature. -/
inductive Enumerator.WellFormed : Enumerator → Prop where
  | range {r : Range} (nonempty : r.start < r.stop) : Enumerator.WellFormed (.range r)
  | values {v : Values} (hv : Values.WellFormed v) : Enumerator.WellFormed (.values v)
  | product {p : Product} {parts : List Enumerator} (hp : Product.WellFormed p)
      (hparts : ∀ e ∈ parts, Enumerator.WellFormed e)
      (fit : parts.map (fun e => e.outputType.signature)
        = p.fields.map fun f => f.ty.signature) :
      Enumerator.WellFormed (.product p parts)
  | once {g : Generator} (hg : Generator.WellFormed g) : Enumerator.WellFormed (.once g)

/-- **Well-formed functions**: the parameters are told apart by their
names. -/
inductive Function.WellFormed : Function → Prop where
  | intro {f : Function} (name : isIdentifier f.name = true)
      (returns : Ty.WellFormed f.returns) (params : ∀ p ∈ f.params, Param.WellFormed p)
      (distinct : (f.params.map Param.name).Nodup) : Function.WellFormed f

/-- Well-formed parameters. -/
inductive Param.WellFormed : Param → Prop where
  | intro {p : Param} (name : isIdentifier p.name = true) (ty : Ty.WellFormed p.ty) :
      Param.WellFormed p

end

/-! ## Fields by their names -/

namespace Product

variable {p : Product}

theorem mem_of_field? {name : String} {f : Field} (h : p.field? name = some f) :
    f ∈ p.fields ∧ f.name = name := by
  have hname := List.find?_some h
  exact ⟨List.mem_of_find?_eq_some h, eq_of_beq hname⟩

theorem hasField_iff {name : String} : p.hasField name = true ↔ name ∈ p.names := by
  rw [hasField, List.any_eq_true, names, List.mem_map]
  exact exists_congr fun f => and_congr_right fun _ => beq_iff_eq

/-- Some field is found under exactly the names of a product. -/
theorem exists_field?_iff {name : String} : (∃ f, p.field? name = some f) ↔ name ∈ p.names := by
  constructor
  · rintro ⟨f, hfind⟩
    obtain ⟨hf, hname⟩ := mem_of_field? hfind
    exact List.mem_map.mpr ⟨f, hf, hname⟩
  · intro hname
    exact Option.isSome_iff_exists.mp (List.find?_isSome.mpr (List.any_eq_true.mp
      (hasField_iff.mpr hname)))

/-- **A product has a generator for exactly its fields.** -/
theorem exists_getGenerator_iff {name : String} :
    (∃ g, p.getGenerator name = .ok g) ↔ name ∈ p.names := by
  rw [← exists_field?_iff, getGenerator, generatorOf?]
  cases p.field? name with
  | none => exact ⟨nofun, nofun⟩
  | some f => exact ⟨fun _ => ⟨f, rfl⟩, fun _ => ⟨f.generator, rfl⟩⟩

/-- **A product has an enumerator for exactly its fields.** -/
theorem exists_getEnumerator_iff {name : String} :
    (∃ e, p.getEnumerator name = .ok e) ↔ name ∈ p.names := by
  rw [← exists_field?_iff, getEnumerator, enumeratorOf?]
  cases p.field? name with
  | none => exact ⟨nofun, nofun⟩
  | some f => exact ⟨fun _ => ⟨f, rfl⟩, fun _ => ⟨f.enumerator, rfl⟩⟩

/-- A field is found under its name. -/
theorem field?_of_mem (hp : p.names.Nodup) {f : Field} (hf : f ∈ p.fields) :
    p.field? f.name = some f := by
  cases hfind : p.field? f.name with
  | none =>
    have hne := List.find?_eq_none.mp hfind f hf
    exact absurd (beq_self_eq_true f.name) hne
  | some g =>
    obtain ⟨hg, hname⟩ := mem_of_field? hfind
    rw [List.inj_on_of_nodup_map hp hg hf hname]

end Product

/-! ## Where a derived product looks -/

section

variable {α : Type} {ok : α → Prop} {outputType : α → Ty} {fields : List Field}

theorem NameTable.mem_of_lookup {overrides : NameTable α} {name : String} {a : α}
    (h : overrides.lookup name = some a) : (name, a) ∈ overrides := by
  obtain ⟨front, back, hsplit, -⟩ := List.lookup_eq_some_iff.mp h
  rw [hsplit]
  exact List.mem_append_right _ List.mem_cons_self

/-- **Nothing but fields is found** in overrides that fit, or else where
the parent looks. -/
theorem OverridesFit.mem_of_lookup {overrides : NameTable α}
    (h : OverridesFit fields outputType overrides) {name : String} {a : α}
    {inherited : Option α} (hfind : (overrides.lookup name).or inherited = some a)
    (hparent : inherited = some a → name ∈ fields.map Field.name) :
    name ∈ fields.map Field.name := by
  rcases Option.or_eq_some_iff.mp hfind with hfind | ⟨-, hfind⟩
  · obtain ⟨f, hf, hname, -⟩ := h.fits _ (NameTable.mem_of_lookup hfind)
    exact List.mem_map.mpr ⟨f, hf, hname⟩
  · exact hparent hfind

/-- **A field is found** in overrides that fit, or else where the parent
finds it. In either case it is found with the signature of the field,
which is all that is needed for the chain above. -/
theorem OverridesFit.exists_lookup {overrides : NameTable α}
    (h : OverridesFit fields outputType overrides) (hok : ∀ e ∈ overrides, ok e.2)
    (distinct : (fields.map Field.name).Nodup) {f : Field} (hf : f ∈ fields)
    {inherited : Option α}
    (hparent : ∃ a, inherited = some a ∧ ok a ∧ (outputType a).signature = f.ty.signature) :
    ∃ a, (overrides.lookup f.name).or inherited = some a ∧ ok a ∧
      (outputType a).signature = f.ty.signature := by
  cases hfind : overrides.lookup f.name with
  | none => exact hparent
  | some a =>
    have hmem := NameTable.mem_of_lookup hfind
    obtain ⟨g, hg, hname, hsig⟩ := h.fits _ hmem
    -- the override fits a field of this name, and there is one only
    have hgf : g = f := List.inj_on_of_nodup_map distinct hg hf hname
    exact ⟨a, rfl, hok _ hmem, hgf ▸ hsig⟩

/-- **No part is missing** when every field is found, and the parts have
the signatures of the fields. -/
theorem parts_of_lookup {look : String → Option α}
    (h : ∀ f ∈ fields, ∃ a, look f.name = some a ∧ ok a ∧
      (outputType a).signature = f.ty.signature) :
    (∀ a ∈ (fields.map Field.name).filterMap look, ok a) ∧
      ((fields.map Field.name).filterMap look).map (fun a => (outputType a).signature)
        = fields.map fun f => f.ty.signature := by
  induction fields with
  | nil => exact ⟨nofun, rfl⟩
  | cons f fields ih =>
    obtain ⟨a, hlook, hok, hsig⟩ := h f List.mem_cons_self
    obtain ⟨hall, hmap⟩ := ih fun g hg => h g (List.mem_cons_of_mem f hg)
    rw [List.map_cons, List.filterMap_cons_some hlook]
    refine ⟨fun b hb => ?_, ?_⟩
    · rcases List.mem_cons.mp hb with rfl | hb
      · exact hok
      · exact hall b hb
    · rw [List.map_cons, List.map_cons, hsig, hmap]

end

namespace Derived

theorem WellFormed.basic : {d : Derived} → d.WellFormed → d.basic.WellFormed
  | ⟨.product _, _, _⟩, ⟨.product hp, _, _, _, _⟩ => hp
  | ⟨.derived _, _, _⟩, ⟨.derived hd, _, _, _, _⟩ => hd.basic

/-- **Every field has a generator** somewhere on the chain. -/
theorem WellFormed.exists_generator : {d : Derived} → d.WellFormed → {f : Field} →
    f ∈ d.basic.fields →
    ∃ g, d.generatorOf? f.name = some g ∧ g.WellFormed ∧
      g.outputType.signature = f.ty.signature
  | ⟨.product p, _, _⟩, ⟨.product hp, hgs, _, hfit, _⟩, f, hf => by
    obtain ⟨-, hfields, hdistinct⟩ := hp
    obtain ⟨-, -, hg, -, hsig, -⟩ := hfields f hf
    refine hfit.exists_lookup hgs hdistinct hf ⟨f.generator, ?_, hg, hsig⟩
    rw [Product.generatorOf?, Product.field?_of_mem hdistinct hf]
    rfl
  | ⟨.derived d, _, _⟩, ⟨.derived hd, hgs, _, hfit, _⟩, f, hf => by
    obtain ⟨-, -, hdistinct⟩ := hd.basic
    exact hfit.exists_lookup hgs hdistinct hf (hd.exists_generator hf)

/-- **Every field has an enumerator** somewhere on the chain. -/
theorem WellFormed.exists_enumerator : {d : Derived} → d.WellFormed → {f : Field} →
    f ∈ d.basic.fields →
    ∃ e, d.enumeratorOf? f.name = some e ∧ e.WellFormed ∧
      e.outputType.signature = f.ty.signature
  | ⟨.product p, _, _⟩, ⟨.product hp, _, hes, _, hfit⟩, f, hf => by
    obtain ⟨-, hfields, hdistinct⟩ := hp
    obtain ⟨-, -, -, he, -, hsig⟩ := hfields f hf
    refine hfit.exists_lookup hes hdistinct hf ⟨f.enumerator, ?_, he, hsig⟩
    rw [Product.enumeratorOf?, Product.field?_of_mem hdistinct hf]
    rfl
  | ⟨.derived d, _, _⟩, ⟨.derived hd, _, hes, _, hfit⟩, f, hf => by
    obtain ⟨-, -, hdistinct⟩ := hd.basic
    exact hfit.exists_lookup hes hdistinct hf (hd.exists_enumerator hf)

/-- Nothing but a field has a generator anywhere on the chain. -/
theorem WellFormed.mem_of_generatorOf? : {d : Derived} → d.WellFormed → {name : String} →
    {g : Generator} → d.generatorOf? name = some g → name ∈ d.basic.names
  | ⟨.product p, _, _⟩, ⟨.product _, _, _, hfit, _⟩, name, g, h => by
    refine hfit.mem_of_lookup h fun hfind => ?_
    obtain ⟨f, hfield, -⟩ := Option.map_eq_some_iff.mp hfind
    exact Product.exists_field?_iff.mp ⟨f, hfield⟩
  | ⟨.derived d, _, _⟩, ⟨.derived hd, _, _, hfit, _⟩, name, g, h =>
    hfit.mem_of_lookup h hd.mem_of_generatorOf?

/-- Nothing but a field has an enumerator anywhere on the chain. -/
theorem WellFormed.mem_of_enumeratorOf? : {d : Derived} → d.WellFormed → {name : String} →
    {e : Enumerator} → d.enumeratorOf? name = some e → name ∈ d.basic.names
  | ⟨.product p, _, _⟩, ⟨.product _, _, _, _, hfit⟩, name, e, h => by
    refine hfit.mem_of_lookup h fun hfind => ?_
    obtain ⟨f, hfield, -⟩ := Option.map_eq_some_iff.mp hfind
    exact Product.exists_field?_iff.mp ⟨f, hfield⟩
  | ⟨.derived d, _, _⟩, ⟨.derived hd, _, _, _, hfit⟩, name, e, h =>
    hfit.mem_of_lookup h hd.mem_of_enumeratorOf?

/-- **A derived product has a generator for exactly the fields** of the
product at its root. -/
theorem WellFormed.exists_getGenerator_iff {d : Derived} (hd : d.WellFormed) {name : String} :
    (∃ g, d.getGenerator name = .ok g) ↔ name ∈ d.basic.names := by
  constructor
  · rintro ⟨g, h⟩
    unfold getGenerator at h
    split at h
    next hfind => exact hd.mem_of_generatorOf? hfind
    next => cases h
  · intro hname
    obtain ⟨f, hf, rfl⟩ := List.mem_map.mp hname
    obtain ⟨g, hfind, -, -⟩ := hd.exists_generator hf
    exact ⟨g, by rw [getGenerator, hfind]⟩

/-- **A derived product has an enumerator for exactly the fields** of the
product at its root. -/
theorem WellFormed.exists_getEnumerator_iff {d : Derived} (hd : d.WellFormed)
    {name : String} : (∃ e, d.getEnumerator name = .ok e) ↔ name ∈ d.basic.names := by
  constructor
  · rintro ⟨e, h⟩
    unfold getEnumerator at h
    split at h
    next hfind => exact hd.mem_of_enumeratorOf? hfind
    next => cases h
  · intro hname
    obtain ⟨f, hf, rfl⟩ := List.mem_map.mp hname
    obtain ⟨e, hfind, -, -⟩ := hd.exists_enumerator hf
    exact ⟨e, by rw [getEnumerator, hfind]⟩

end Derived

/-! ## What a well-formed type yields -/

/-- The last element of a range is none below its start. -/
theorem Range.start_le_pred {r : Range} (h : r.start < r.stop) : r.start ≤ r.stop - 1 := by
  have hlt := Int32.lt_iff_toInt_lt.mp h
  have hstart := r.start.le_toInt
  have hstop := r.stop.toInt_lt
  have hone : (1 : Int32).toInt = 1 := rfl
  rw [Int32.le_iff_toInt_le, Int32.toInt_sub, hone,
    Int.bmod_eq_of_le (by omega) (by omega)]
  omega

/-- The generator of a well-formed product. -/
theorem Product.WellFormed.generator {p : Product} (hp : p.WellFormed) :
    p.generator.WellFormed := by
  refine .product hp (fun g hg => ?_) ?_
  · obtain ⟨-, hfields, -⟩ := hp
    obtain ⟨f, hf, rfl⟩ := List.mem_map.mp hg
    obtain ⟨-, -, hgen, -, -, -⟩ := hfields f hf
    exact hgen
  · obtain ⟨-, hfields, -⟩ := hp
    rw [List.map_map]
    refine List.map_congr_left fun f hf => ?_
    obtain ⟨-, -, -, -, hsig, -⟩ := hfields f hf
    exact hsig

/-- The enumerator of a well-formed product. -/
theorem Product.WellFormed.enumerator {p : Product} (hp : p.WellFormed) :
    p.enumerator.WellFormed := by
  refine .product hp (fun e he => ?_) ?_
  · obtain ⟨-, hfields, -⟩ := hp
    obtain ⟨f, hf, rfl⟩ := List.mem_map.mp he
    obtain ⟨-, -, -, henum, -, -⟩ := hfields f hf
    exact henum
  · obtain ⟨-, hfields, -⟩ := hp
    rw [List.map_map]
    refine List.map_congr_left fun f hf => ?_
    obtain ⟨-, -, -, -, -, hsig⟩ := hfields f hf
    exact hsig

/-- **The generator of a well-formed type is well-formed.** -/
theorem Ty.WellFormed.generator {t : Ty} (ht : t.WellFormed) : t.generator.WellFormed := by
  cases ht with
  | int => exact .uniform (by decide)
  | range h => exact .uniform (Range.start_le_pred h)
  | values hv => exact .values hv
  | product hp => exact hp.generator
  | derived hd =>
    obtain ⟨hall, hmap⟩ := parts_of_lookup fun f hf => hd.exists_generator hf
    exact .product hd.basic hall hmap

/-- **The enumerator of a well-formed type is well-formed.** -/
theorem Ty.WellFormed.enumerator {t : Ty} (ht : t.WellFormed) : t.enumerator.WellFormed := by
  cases ht with
  | int => exact .once (Ty.WellFormed.generator .int)
  | range h => exact .range h
  | values hv => exact .values hv
  | product hp => exact hp.enumerator
  | derived hd =>
    obtain ⟨hall, hmap⟩ := parts_of_lookup fun f hf => hd.exists_enumerator hf
    exact .product hd.basic hall hmap

/-- What a well-formed generator yields is of a well-formed type. -/
theorem Generator.WellFormed.outputType {g : Generator} (hg : g.WellFormed) :
    g.outputType.WellFormed := by
  cases hg with
  | uniform => exact .int
  | values hv =>
    obtain ⟨hty, -, -⟩ := hv
    exact hty
  | product hp => exact .product hp
  | call hf =>
    obtain ⟨-, hreturns, -, -⟩ := hf
    exact hreturns
  | runArgument _ hty => exact hty

/-- What a well-formed enumerator yields is of a well-formed type. -/
theorem Enumerator.WellFormed.outputType {e : Enumerator} (he : e.WellFormed) :
    e.outputType.WellFormed := by
  cases he with
  | range h => exact .range h
  | values hv =>
    obtain ⟨hty, -, -⟩ := hv
    exact hty
  | product hp => exact .product hp
  | once hg => exact hg.outputType

end Specimen
