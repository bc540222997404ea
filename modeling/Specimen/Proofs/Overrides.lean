import Specimen.Proofs.Constructors
import Specimen.Schema.Override

/-!
# Overrides are made as a whole or not at all

An override by a type is made in two steps, so it could stop half-way:
with the generator in its place and the enumerator refused. It never
does, because the two steps ask the same question. What a type's
generator yields has the signature of the type, and so has what its
enumerator yields, although the types of the two may differ from each
other and from the type itself. And nothing that the first step changes
plays a role for the second, which is about the field's type alone.

So every override comes down to one check and one change
(`Product.override_eq`, `Derived.override_eq`). What the change leaves
alone is most of the object, above all whatever its layout is made of:
however often a product is overridden, it accepts the same values and
reads the same from every stream.
-/

namespace Specimen

/-! ## Changes in place -/

section Edit

variable {α : Type}

/-- **A change in place** goes as its operation does, and a refusal leaves
everything as it was. -/
theorem run_edit (operation : α → Except Error α) (a : α) :
    (edit operation).run a = match operation a with
      | .ok b => (.ok (), b)
      | .error e => (.error e, a) := by
  show ExceptT.bindCont (set (m := Edit α)) (operation a) a = _
  cases operation a <;> rfl

/-- A change in front of others. -/
theorem run_edit_bind (operation : α → Except Error α) (next : Edit α Unit) (a : α) :
    (edit operation >>= fun _ => next).run a = match operation a with
      | .ok b => next.run b
      | .error e => (.error e, a) := by
  show ExceptT.bindCont (fun _ => next) ((edit operation).run a).1 ((edit operation).run a).2 = _
  rw [run_edit]
  cases operation a <;> rfl

/-- **Two changes that ask the same question are one.** The second does
not refuse what the first has accepted. -/
theorem edit_bind_edit {check check' : α → Except Error Unit} {change change' : α → α}
    (h : ∀ a, check' (change a) = check a) :
    (edit (fun a => check a >>= fun _ => pure (change a)) >>= fun _ =>
        edit fun a => check' a >>= fun _ => pure (change' a))
      = edit fun a => check a >>= fun _ => pure (change' (change a)) := by
  refine ExceptT.ext (funext fun a => ?_)
  rw [run_edit_bind, run_edit]
  cases hcheck : check a with
  | error e => rfl
  | ok u =>
    show (edit fun a => check' a >>= fun _ => pure (change' a)).run (change a) = _
    rw [run_edit, h, hcheck]
    rfl

end Edit

/-! ## What an override has for a field -/

namespace Override

/-- The type of what is yielded in a field from now on. -/
def outputType : Override → Ty
  | ofType ty => ty
  | generator g => g.outputType
  | enumerator e => e.outputType

/-- The generator that a field gets, if it gets one. -/
def generator? : Override → Option Generator
  | ofType ty => some ty.generator
  | generator g => some g
  | enumerator _ => none

/-- The enumerator that a field gets, if it gets one. -/
def enumerator? : Override → Option Enumerator
  | ofType ty => some ty.enumerator
  | generator _ => none
  | enumerator e => some e

/-- A field that has been overridden. -/
def onField (o : Override) (f : Field) : Field :=
  ⟨f.name, f.ty, o.generator?.getD f.generator, o.enumerator?.getD f.enumerator⟩

end Override

/-! ## Products -/

namespace Product

variable {p : Product} {field : String}

/-- **A check is about the layout alone.** -/
theorem checkOverride_congr {t u : Ty} (h : t.layout = u.layout) :
    p.checkOverride field t = p.checkOverride field u := by
  unfold checkOverride Ty.signature
  rw [h]

theorem checkOverride_generator (ty : Ty) :
    p.checkOverride field ty.generator.outputType = p.checkOverride field ty :=
  checkOverride_congr ty.layout_outputType_generator

theorem checkOverride_enumerator (ty : Ty) :
    p.checkOverride field ty.enumerator.outputType = p.checkOverride field ty :=
  checkOverride_congr ty.layout_outputType_enumerator

theorem checkOverride_of_not_mem (h : field ∉ p.names) (output : Ty) :
    p.checkOverride field output = .error (.unknownField p.label field) := by
  have hnone : p.field? field = none := by
    by_contra hsome
    exact h (exists_field?_iff.mp (Option.ne_none_iff_exists'.mp hsome))
  rw [checkOverride, hnone]

/-- A field that is there. -/
theorem WellFormed.checkOverride_of_mem (hp : p.WellFormed) {f : Field} (hf : f ∈ p.fields)
    (output : Ty) :
    p.checkOverride f.name output
      = if f.ty.signature = output.signature then .ok ()
        else .error (.invalidType
          (.fieldMismatch p.label f.name f.ty.signature output.signature)) := by
  obtain ⟨-, -, hdistinct⟩ := hp
  rw [checkOverride, field?_of_mem hdistinct hf]

/-- The types of fields, looked up by name. -/
theorem map_ty_field? (p : Product) (name : String) :
    (p.field? name).map Field.ty = (p.names.zip p.types).lookup name := by
  obtain ⟨label, fields⟩ := p
  unfold field? names types
  induction fields with
  | nil => rfl
  | cons f fields ih =>
    rw [List.find?_cons, List.map_cons, List.map_cons, List.zip_cons_cons, List.lookup_cons,
      Bool.beq_comm, ← ih]
    cases name == f.name <;> rfl

/-- **A product has the fields of another** when nothing but where their
values come from is different. -/
structure HasFieldsOf (q p : Product) : Prop where
  /-- The name of the product. -/
  name : q.name = p.name
  /-- The names of the fields. -/
  names : q.names = p.names
  /-- The types of the fields. -/
  types : q.types = p.types

namespace HasFieldsOf

variable {q r : Product}

theorem refl (p : Product) : p.HasFieldsOf p := ⟨rfl, rfl, rfl⟩

theorem trans (hrq : r.HasFieldsOf q) (hqp : q.HasFieldsOf p) : r.HasFieldsOf p :=
  ⟨hrq.name.trans hqp.name, hrq.names.trans hqp.names, hrq.types.trans hqp.types⟩

/-- **The layout is made of the fields.** -/
theorem layout_eq (h : q.HasFieldsOf p) : q.layout = p.layout := by
  have hlayout : ∀ p : Product, p.layout = .product p.name
      (List.zipWith (fun name ty => ⟨name, ty.layout⟩) p.names p.types) := by
    rintro ⟨name, fields⟩
    rw [Product.layout, fieldLayouts_eq_map, Product.names, Product.types, List.zipWith_map,
      List.zipWith_self]
  rw [hlayout, hlayout, h.name, h.names, h.types]

/-- **A check asks the same** of a product with the same fields. -/
theorem checkOverride_eq (h : q.HasFieldsOf p) (field : String) (output : Ty) :
    q.checkOverride field output = p.checkOverride field output := by
  have hty : (q.field? field).map Field.ty = (p.field? field).map Field.ty := by
    rw [map_ty_field?, map_ty_field?, h.names, h.types]
  have hlabel : q.label = p.label := congrArg Layout.label h.name
  unfold checkOverride
  cases hq : q.field? field <;> cases hp : p.field? field <;> rw [hq, hp] at hty
  · rw [hlabel]
  · cases hty
  · cases hty
  · dsimp only
    rw [Option.some.inj hty, hlabel]

end HasFieldsOf

/-- A product with a field overridden. -/
def replace (p : Product) (field : String) (o : Override) : Product :=
  p.modify field o.onField

/-- **An override keeps the fields.** -/
theorem hasFieldsOf_replace (p : Product) (field : String) (o : Override) :
    (p.replace field o).HasFieldsOf p := by
  refine ⟨rfl, p.names_modify field fun _ => rfl, ?_⟩
  unfold replace modify types
  rw [List.map_map]
  refine List.map_congr_left fun f _ => ?_
  rw [Function.comp_apply]
  split <;> rfl

/-- Fields are found under the names they had. -/
theorem field?_replace (p : Product) (field : String) (o : Override) (name : String) :
    (p.replace field o).field? name
      = (p.field? name).map fun f => if f.name == field then o.onField f else f := by
  unfold field? replace modify
  rw [List.find?_map]
  refine congrArg (Option.map _) (congrArg (p.fields.find? ·) (funext fun f => ?_))
  show ((if f.name == field then o.onField f else f).name == name) = (f.name == name)
  split <;> rfl

/-- A type is put in by its generator and then its enumerator. -/
theorem replace_replace (p : Product) (field : String) (ty : Ty) :
    (p.replace field (.generator ty.generator)).replace field (.enumerator ty.enumerator)
      = p.replace field (.ofType ty) := by
  unfold replace modify
  rw [List.map_map]
  refine congrArg (Product.mk p.name) (List.map_congr_left fun f _ => ?_)
  rw [Function.comp_apply]
  by_cases h : (f.name == field) = true
  · rw [if_pos h, if_pos h]
    exact if_pos h
  · rw [if_neg h, if_neg h, if_neg h]

/-- **An override of a product is one check and one change.** -/
theorem override_eq (field : String) (o : Override) :
    Product.override field o = edit fun p =>
      p.checkOverride field o.outputType >>= fun _ => pure (p.replace field o) := by
  cases o with
  | generator g => rfl
  | enumerator e => rfl
  | ofType ty =>
    refine (edit_bind_edit fun p => ?_).trans (congrArg edit (funext fun p => ?_))
    · rw [checkOverride_generator, checkOverride_enumerator]
      exact (p.hasFieldsOf_replace field (.generator ty.generator)).checkOverride_eq field ty
    · rw [checkOverride_generator]
      exact congrArg (fun q => p.checkOverride field ty >>= fun _ => pure q)
        (p.replace_replace field ty)

end Product

/-! ## Derived products -/

namespace NameTable

variable {α : Type}

theorem lookup_eq_find? (t : NameTable α) (name : String) : t.lookup name = find? name t := by
  induction t with
  | nil => rfl
  | cons e t ih =>
    obtain ⟨n, a⟩ := e
    rw [List.lookup_cons, find?, ih, Bool.beq_comm]
    cases n == name <;> rfl

/-- **What a table holds** after an entry was put in. -/
theorem lookup_insert (name : String) (a : α) (t : NameTable α) (other : String) :
    (insert name a t).lookup other = if other = name then some a else t.lookup other := by
  rw [lookup_eq_find?, lookup_eq_find?]
  split
  next h => rw [h, find?_insert_self]
  next h => exact find?_insert_of_ne h a t

/-- Puts an entry in, if there is anything to put in. -/
def insertAny (name : String) (a : Option α) (t : NameTable α) : NameTable α :=
  a.elim t fun a => insert name a t

end NameTable

namespace Derived

/-- A derived product with a field overridden. -/
def replace (d : Derived) (field : String) (o : Override) : Derived :=
  ⟨d.parent, NameTable.insertAny field o.generator? d.generators,
    NameTable.insertAny field o.enumerator? d.enumerators⟩

theorem basic_replace (d : Derived) (field : String) (o : Override) :
    (d.replace field o).basic = d.basic := basic_congr rfl

/-- **An override of a derived product is one check and one change**, and
the check is about the product at the root. -/
theorem override_eq (field : String) (o : Override) :
    Derived.override field o = edit fun d =>
      d.basic.checkOverride field o.outputType >>= fun _ => pure (d.replace field o) := by
  cases o with
  | generator g => rfl
  | enumerator e => rfl
  | ofType ty =>
    refine (edit_bind_edit fun d => ?_).trans (congrArg edit (funext fun d => ?_))
    · rw [Product.checkOverride_generator, Product.checkOverride_enumerator]
      exact congrArg (Product.checkOverride · field ty) (d.basic_replace field (.generator _))
    · rw [Product.checkOverride_generator]
      rfl

end Derived

/-! ## What changes and what does not -/

section Replaces

variable {α : Type}

/-- **A table is replaced in one place**: under the name it holds what is
new, if anything is, and elsewhere what it held before. -/
def Replaces (name : String) (new : Option α) (before after : String → Option α) : Prop :=
  ∀ other, after other = if other = name then new.or (before other) else before other

theorem replaces_insertAny (name : String) (a : Option α) (t : NameTable α) :
    Replaces name a (fun n => t.lookup n) fun n => (NameTable.insertAny name a t).lookup n := by
  intro other
  cases a with
  | none => exact (ite_self _).symm
  | some a => exact NameTable.lookup_insert name a t other

/-- What fields have for their values is replaced in the field that is
overridden. -/
theorem Product.replaces_field? {p : Product} {field : String} {o : Override} {get : Field → α}
    {new : Option α} (hget : ∀ f, get (o.onField f) = new.getD (get f)) (hfield : field ∈ p.names) :
    Replaces field new (fun n => (p.field? n).map get)
      fun n => ((p.replace field o).field? n).map get := by
  intro other
  dsimp only
  rw [Product.field?_replace]
  cases hfind : p.field? other with
  | none =>
    -- the field is found, so this is another name
    have hne : other ≠ field := by
      rintro rfl
      obtain ⟨f, hf⟩ := Product.exists_field?_iff.mpr hfield
      cases hfind.symm.trans hf
    rw [if_neg hne]
    rfl
  | some f =>
    obtain ⟨-, rfl⟩ := Product.mem_of_field? hfind
    rw [Option.map_some, Option.map_some, Option.map_some]
    by_cases h : f.name = field
    · rw [if_pos (beq_iff_eq.mpr h), if_pos h, hget]
      cases new <;> rfl
    · rw [if_neg (fun heq => h (beq_iff_eq.mp heq)), if_neg h]

end Replaces

/-- **What an override changes in a product**: the generator and the
enumerator of one field, each if the override has one for it. -/
structure Product.Overridden (p : Product) (field : String) (o : Override) (q : Product) :
    Prop where
  /-- The fields stay. -/
  fields : q.HasFieldsOf p
  /-- One field's generator is replaced, at most. -/
  generators : Replaces field o.generator? p.generatorOf? q.generatorOf?
  /-- One field's enumerator is replaced, at most. -/
  enumerators : Replaces field o.enumerator? p.enumeratorOf? q.enumeratorOf?

/-- **What an override changes in a derived product**: an entry of its own
overrides of generators and one of those of enumerators. -/
structure Derived.Overridden (d : Derived) (field : String) (o : Override) (d' : Derived) :
    Prop where
  /-- What is specialized stays. -/
  parent : d'.parent = d.parent
  /-- One overridden generator is replaced or new, at most. -/
  generators : Replaces field o.generator? (fun n => d.generators.lookup n)
    fun n => d'.generators.lookup n
  /-- One overridden enumerator is replaced or new, at most. -/
  enumerators : Replaces field o.enumerator? (fun n => d.enumerators.lookup n)
    fun n => d'.enumerators.lookup n

theorem Product.overridden_replace {p : Product} {field : String} (hfield : field ∈ p.names)
    (o : Override) : p.Overridden field o (p.replace field o) :=
  ⟨p.hasFieldsOf_replace field o, replaces_field? (fun _ => rfl) hfield,
    replaces_field? (fun _ => rfl) hfield⟩

theorem Derived.overridden_replace (d : Derived) (field : String) (o : Override) :
    d.Overridden field o (d.replace field o) :=
  ⟨rfl, replaces_insertAny field o.generator? d.generators,
    replaces_insertAny field o.enumerator? d.enumerators⟩

/-! ## How an override ends -/

section Ends

variable {α : Type} {basic : Product} {field : String} {o : Override} {before : α}
  {Changed : α → Prop}

/-- **How an override ends**, of something that has the fields of a
product. A field that is not there and one of another signature are
refused, and then everything is as it was. -/
structure Override.Ends (basic : Product) (field : String) (o : Override) (before : α)
    (Changed : α → Prop) (result : Except Error Unit × α) : Prop where
  /-- There is no field of the name. -/
  unknown : field ∉ basic.names → result = (.error (.unknownField basic.label field), before)
  /-- The field has another signature. -/
  refused : ∀ f ∈ basic.fields, f.name = field →
    o.outputType.signature ≠ f.ty.signature →
    result = (.error (.invalidType (.fieldMismatch basic.label field f.ty.signature
      o.outputType.signature)), before)
  /-- The field has the signature. -/
  accepted : ∀ f ∈ basic.fields, f.name = field →
    o.outputType.signature = f.ty.signature → ∃ after, result = (.ok (), after) ∧ Changed after

/-- One check and one change end as the check does. -/
theorem Override.ends_edit (hbasic : basic.WellFormed) {check : α → Except Error Unit}
    {change : α → α} (hcheck : check before = basic.checkOverride field o.outputType)
    (hchange : field ∈ basic.names → Changed (change before)) :
    o.Ends basic field before Changed
      ((edit fun a => check a >>= fun _ => pure (change a)).run before) := by
  rw [run_edit, hcheck]
  refine ⟨fun hfield => ?_, fun f hf hname hsig => ?_, fun f hf hname hsig => ?_⟩
  · rw [Product.checkOverride_of_not_mem hfield]
    rfl
  · rw [← hname, hbasic.checkOverride_of_mem hf, if_neg hsig.symm]
    rfl
  · rw [← hname, hbasic.checkOverride_of_mem hf, if_pos hsig.symm]
    exact ⟨change before, rfl, hchange (List.mem_map.mpr ⟨f, hf, hname⟩)⟩

end Ends

/-! ## One override after another -/

section Each

variable {α : Type} {override : String → Override → Edit α Unit}

/-- Overrides fields one after another, however each of the overrides
ends. -/
def overrideEach (override : String → Override → Edit α Unit) (steps : List (String × Override))
    (a : α) : α :=
  steps.foldl (fun a step => ((override step.1 step.2).run a).2) a

/-- **What each override keeps, all of them keep.** -/
theorem overrideEach_keeps (Keeps : α → α → Prop) (hrefl : ∀ a, Keeps a a)
    (htrans : ∀ {a b c}, Keeps c b → Keeps b a → Keeps c a)
    (hstep : ∀ field o a, Keeps ((override field o).run a).2 a)
    (steps : List (String × Override)) (a : α) : Keeps (overrideEach override steps a) a := by
  induction steps generalizing a with
  | nil => exact hrefl a
  | cons step steps ih => exact htrans (ih _) (hstep step.1 step.2 a)

end Each

/-- What an edit of one check leaves behind: what was there, or what it
was changed to. -/
theorem run_edit_snd {α : Type} (Keeps : α → α → Prop) {check : α → Except Error Unit}
    {change : α → α} {a : α} (hrefl : Keeps a a) (hchange : Keeps (change a) a) :
    Keeps ((edit fun a => check a >>= fun _ => pure (change a)).run a).2 a := by
  rw [run_edit]
  cases check a
  · exact hrefl
  · exact hchange

theorem Product.hasFieldsOf_overrideEach (p : Product) (steps : List (String × Override)) :
    (overrideEach Product.override steps p).HasFieldsOf p := by
  refine overrideEach_keeps HasFieldsOf .refl .trans (fun field o q => ?_) steps p
  rw [override_eq]
  exact run_edit_snd HasFieldsOf (.refl q) (q.hasFieldsOf_replace field o)

theorem Derived.parent_overrideEach (d : Derived) (steps : List (String × Override)) :
    (overrideEach Derived.override steps d).parent = d.parent := by
  refine overrideEach_keeps (fun d' d : Derived => d'.parent = d.parent) (fun _ => rfl) Eq.trans
    (fun field o d => ?_) steps d
  rw [override_eq]
  exact run_edit_snd (fun d' d : Derived => d'.parent = d.parent) rfl rfl

/-- **Types that are alike**: no value and no stream tells them apart. -/
structure Ty.Alike (t u : Ty) : Prop where
  /-- They have one signature. -/
  signature : t.signature = u.signature
  /-- They accept the same values. -/
  accepts : ∀ v, t.accepts v = u.accepts v
  /-- They read the same. -/
  read : ∀ s, t.read s = u.read s

theorem Ty.alike_of_layout {t u : Ty} (h : t.layout = u.layout) : t.Alike u := by
  refine ⟨?_, fun v => ?_, fun s => ?_⟩
  · rw [Ty.signature, Ty.signature, h]
  · rw [Ty.accepts, Ty.accepts, h]
  · rw [Ty.read, Ty.read, h]

/-- **Overrides are made as a whole or not at all**, and never change the
layout. An override of a product or of a derived product succeeds exactly
when the field is there and has the signature of what is yielded from now
on, and then nothing but the one field's entries is replaced. When it is
refused, nothing is: a type that is refused has not left its generator
behind. However often fields are overridden, and however that ends, the
fields are the same, and so is what the type accepts and reads. -/
theorem Override.ends_override :
    (∀ (p : Product) (field : String) (o : Override), p.WellFormed →
      o.Ends p field p (p.Overridden field o) ((Product.override field o).run p)) ∧
    (∀ (d : Derived) (field : String) (o : Override), d.WellFormed →
      o.Ends d.basic field d (d.Overridden field o) ((Derived.override field o).run d)) ∧
    (∀ (p : Product) (steps : List (String × Override)),
      (overrideEach Product.override steps p).HasFieldsOf p ∧
      (Ty.product (overrideEach Product.override steps p)).Alike (.product p)) ∧
    (∀ (d : Derived) (steps : List (String × Override)),
      (overrideEach Derived.override steps d).parent = d.parent ∧
      (overrideEach Derived.override steps d).basic = d.basic ∧
      (Ty.derived (overrideEach Derived.override steps d)).Alike (.derived d)) := by
  refine ⟨fun p field o hp => ?_, fun d field o hd => ?_, fun p steps => ?_, fun d steps => ?_⟩
  · rw [Product.override_eq]
    exact ends_edit hp rfl fun hfield => Product.overridden_replace hfield o
  · rw [Derived.override_eq]
    exact ends_edit hd.basic rfl fun _ => d.overridden_replace field o
  · have hfields := p.hasFieldsOf_overrideEach steps
    refine ⟨hfields, Ty.alike_of_layout ?_⟩
    rw [Ty.layout, Ty.layout, hfields.layout_eq]
  · have hparent := d.parent_overrideEach steps
    refine ⟨hparent, Derived.basic_congr hparent, Ty.alike_of_layout ?_⟩
    rw [Ty.layout, Ty.layout, Derived.layout_eq_basic, Derived.layout_eq_basic,
      Derived.basic_congr hparent]

/-- A pair of integers. It does not take a pair for its first integer, nor
anything for a field it does not have, and what is derived from it takes a
range for its second integer. -/
theorem Override.ends_override_pair :
    let p := Product.tuple [.int, .int]
    p.WellFormed ∧ p.derive.WellFormed ∧
    (Product.override "_v0" (.ofType (.product p))).run p
      = (.error (.invalidType
          (.fieldMismatch "(anonymous)" "_v0" "int" "\x7b_v0:int,_v1:int\x7d")), p) ∧
    (Product.override "x" (.ofType .int)).run p
      = (.error (.unknownField "(anonymous)" "x"), p) ∧
    ∃ d, (Derived.override "_v1" (.ofType (.range ⟨0, 3⟩))).run p.derive = (.ok (), d) ∧
      d.generators.lookup "_v1" = some (.uniform 0 2) ∧
      d.enumerators.lookup "_v1" = some (.range ⟨0, 3⟩) ∧
      d.generators.lookup "_v0" = none := by
  intro p
  obtain ⟨hproduct, hderived, -, -⟩ := Override.ends_override
  have hp : p.WellFormed := by
    refine Product.wellFormed_tuple fun t ht => ?_
    simp only [List.mem_cons, List.not_mem_nil, or_false, or_self] at ht
    exact ht ▸ .int
  have hd : p.derive.WellFormed := hp.derive
  have hmismatch : (Ty.product p).signature ≠ Ty.int.signature := by decide +kernel
  have hunknown : "x" ∉ p.names := by decide
  refine ⟨hp, hd, ?_, (hproduct p "x" _ hp).unknown hunknown, ?_⟩
  · exact (hproduct p "_v0" (.ofType (.product p)) hp).refused _ List.mem_cons_self rfl hmismatch
  · obtain ⟨d, hrun, hchanged⟩ := (hderived p.derive "_v1" (.ofType (.range ⟨0, 3⟩)) hd).accepted
      _ (List.mem_cons_of_mem _ List.mem_cons_self) rfl rfl
    exact ⟨d, hrun, hchanged.generators "_v1", hchanged.enumerators "_v1",
      hchanged.generators "_v0"⟩

end Specimen
