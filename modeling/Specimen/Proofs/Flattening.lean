import Mathlib.Logic.Function.Iterate
import Specimen.Proofs.Overrides

/-!
# A chain of derivations amounts to one product

A derived product finds the generator of a field in its own overrides or,
if it has none there, where its parent finds it, down to the product at
the root. It comes to the same when the overrides are **flattened**: set
in a copy of that product one after another, those of the farthest
ancestor first, so that the nearest override of a field is set last and
stays.

Setting the overrides never fails, although each of them is checked again
in a product that has been changed before. They fit the fields of the
product at the root, and the copy has these fields at any time
(`Product.HasFieldsOf`). One derived product is gone through by
`Product.setOwn_spec`, where it matters that no field is overridden twice
in one table, and the chain by induction (`Derived.WellFormed.flatten_spec`).
-/

namespace Specimen

/-! ## Setting a table of overrides -/

section Table

variable {α β : Type}

theorem NameTable.lookup_of_pairwise {name : String} {a : α} {t : NameTable α}
    (h : List.Pairwise (fun d e : String × α => d.1 < e.1) ((name, a) :: t)) :
    t.lookup name = none := by
  by_contra hsome
  obtain ⟨b, hb⟩ := Option.ne_none_iff_exists'.mp hsome
  have hlt := (List.pairwise_cons.mp h).1 _ (NameTable.mem_of_lookup hb)
  exact String.lt_irrefl name hlt

/-- **One entry, then the rest of a table**: what the rest has for a name
goes before what the entry has, and that before what there was. -/
theorem Replaces.lookup_cons {name : String} {a : α} {value : α → Option β} {t : NameTable α}
    (hnew : t.lookup name = none) {before after : String → Option β}
    (h : Replaces name (value a) before after) (other : String) :
    ((t.lookup other).bind value).or (after other)
      = ((List.lookup other ((name, a) :: t)).bind value).or (before other) := by
  rw [h other, List.lookup_cons]
  by_cases hname : other = name
  · rw [hname, hnew, if_pos rfl, beq_self_eq_true]
    rfl
  · rw [if_neg hname, beq_eq_false_iff_ne.mpr hname]

end Table

namespace Product

variable {p basic : Product}

theorem HasFieldsOf.checkOverride_eq_ok (h : p.HasFieldsOf basic) (hbasic : basic.WellFormed)
    {name : String} {output : Ty}
    (hfits : ∃ f ∈ basic.fields, f.name = name ∧ output.signature = f.ty.signature) :
    p.checkOverride name output = .ok () := by
  obtain ⟨f, hf, rfl, hsig⟩ := hfits
  rw [h.checkOverride_eq, hbasic.checkOverride_of_mem hf, if_pos hsig.symm]

/-- **Overrides that fit are set one after another**, in a product that
has the fields they fit. They take the place of what the product had, and
what is not overridden stays. -/
theorem foldlM_set_spec {α : Type} (set : Product → String → α → Except Error Product)
    (override : α → Override)
    (hset : ∀ p name a, set p name a
      = p.checkOverride name (override a).outputType >>= fun _ =>
        pure (p.replace name (override a)))
    (hbasic : basic.WellFormed) {t : NameTable α}
    (hfit : OverridesFit basic.fields (fun a => (override a).outputType) t)
    (hp : p.HasFieldsOf basic) :
    ∃ q, t.foldlM (fun p e => set p e.1 e.2) p = .ok q ∧ q.HasFieldsOf basic ∧
      (∀ name, q.generatorOf? name
        = ((t.lookup name).bind fun a => (override a).generator?).or (p.generatorOf? name)) ∧
      (∀ name, q.enumeratorOf? name
        = ((t.lookup name).bind fun a => (override a).enumerator?).or (p.enumeratorOf? name)) := by
  induction t generalizing p with
  | nil => exact ⟨p, rfl, hp, fun _ => rfl, fun _ => rfl⟩
  | cons e t ih =>
    obtain ⟨name, a⟩ := e
    have hnew := NameTable.lookup_of_pairwise hfit.sorted
    obtain ⟨f, hf, hname, hsig⟩ := hfit.fits _ List.mem_cons_self
    have hfield : name ∈ p.names := hp.names ▸ List.mem_map.mpr ⟨f, hf, hname⟩
    have hreplaced := overridden_replace hfield (override a)
    obtain ⟨q, hfold, hq, hgenerators, henumerators⟩ :=
      ih ⟨(List.pairwise_cons.mp hfit.sorted).2, fun e he => hfit.fits e (List.mem_cons_of_mem _ he)⟩
        (hreplaced.fields.trans hp)
    refine ⟨q, ?_, hq, fun other => ?_, fun other => ?_⟩
    · rw [List.foldlM_cons, hset, hp.checkOverride_eq_ok hbasic ⟨f, hf, hname, hsig⟩]
      exact hfold
    · rw [hgenerators]
      exact hreplaced.generators.lookup_cons hnew other
    · rw [henumerators]
      exact hreplaced.enumerators.lookup_cons hnew other

end Product

/-! ## Flattening -/

/-- **Sets the overrides of a derived product**, but not those of its
ancestors. -/
def Product.setOwn (p : Product) (d : Derived) : Except Error Product := do
  let q ← d.generators.foldlM (fun p e => p.setGenerator e.1 e.2) p
  d.enumerators.foldlM (fun p e => p.setEnumerator e.1 e.2) q

/-- **The product that a derivation amounts to**: the one at its root with
all overrides set, those of the farthest ancestor first. -/
def Derived.flatten (d : Derived) : Except Error Product :=
  d.chain.reverse.foldlM Product.setOwn d.basic

/-- **A derived product in front of what it specializes**: what it
overrides is found in its own tables, and the rest as before. The fields
it overrides are among those of the product at its root, so setting them
in a copy is never refused. -/
theorem Product.setOwn_spec {d : Derived} (hd : d.WellFormed) {p : Product}
    (hp : p.HasFieldsOf d.basic) :
    ∃ q, p.setOwn d = .ok q ∧ q.HasFieldsOf d.basic ∧
      (∀ name, q.generatorOf? name = (d.generators.lookup name).or (p.generatorOf? name)) ∧
      (∀ name, q.enumeratorOf? name = (d.enumerators.lookup name).or (p.enumeratorOf? name)) := by
  have hbasic := hd.basic
  obtain ⟨-, -, -, hgenerators, henumerators⟩ := hd
  obtain ⟨q, hset, hq, hqgen, hqenum⟩ :=
    foldlM_set_spec setGenerator .generator (fun _ _ _ => rfl) hbasic hgenerators hp
  obtain ⟨r, hset', hr, hrgen, hrenum⟩ :=
    foldlM_set_spec setEnumerator .enumerator (fun _ _ _ => rfl) hbasic henumerators hq
  refine ⟨r, ?_, hr, fun name => ?_, fun name => ?_⟩
  · rw [setOwn, hset]
    exact hset'
  · -- setting enumerators replaces no generator, and the other way round
    rw [hrgen, hqgen]
    show ((d.enumerators.lookup name).bind fun _ => none).or
      (((d.generators.lookup name).bind some).or _) = _
    rw [Option.bind_fun_none, Option.none_or, Option.bind_fun_some]
  · rw [hrenum, hqenum]
    show ((d.enumerators.lookup name).bind some).or
      (((d.generators.lookup name).bind fun _ => none).or _) = _
    rw [Option.bind_fun_some, Option.bind_fun_none, Option.none_or]

namespace Derived

theorem flatten_product (p : Product) (gs : List (String × Generator))
    (es : List (String × Enumerator)) :
    (Derived.mk (.product p) gs es).flatten = p.setOwn ⟨.product p, gs, es⟩ := by
  show p.setOwn ⟨.product p, gs, es⟩ >>= pure = _
  rw [bind_pure]

theorem flatten_derived (d : Derived) (gs : List (String × Generator))
    (es : List (String × Enumerator)) :
    (Derived.mk (.derived d) gs es).flatten
      = d.flatten >>= fun q => q.setOwn ⟨.derived d, gs, es⟩ := by
  show (Derived.mk (.derived d) gs es :: d.chain).reverse.foldlM Product.setOwn d.basic = _
  rw [List.reverse_cons, List.foldlM_append]
  refine congrArg (d.flatten >>= ·) (funext fun q => ?_)
  show q.setOwn ⟨.derived d, gs, es⟩ >>= pure = _
  rw [bind_pure]

/-- **Flattening succeeds, and finds what the chain finds**, by induction
on the chain. Its outermost product is looked at first, as it is set last.
-/
theorem WellFormed.flatten_spec : {d : Derived} → d.WellFormed →
    ∃ q, d.flatten = .ok q ∧ q.HasFieldsOf d.basic ∧
      (∀ name, q.generatorOf? name = d.generatorOf? name) ∧
      (∀ name, q.enumeratorOf? name = d.enumeratorOf? name)
  | ⟨.product p, gs, es⟩, hd => by
    rw [flatten_product]
    exact Product.setOwn_spec hd (.refl p)
  | ⟨.derived d, gs, es⟩, hd@⟨.derived hparent, _, _, _, _⟩ => by
    obtain ⟨q, hflat, hq, hqgen, hqenum⟩ := hparent.flatten_spec
    obtain ⟨r, hset, hr, hrgen, hrenum⟩ := Product.setOwn_spec hd hq
    refine ⟨r, ?_, hr, fun name => ?_, fun name => ?_⟩
    · rw [flatten_derived, hflat]
      exact hset
    · rw [hrgen, hqgen]
      rfl
    · rw [hrenum, hqenum]
      rfl

end Derived

/-! ## What is taken from a chain -/

namespace Product

variable {p : Product}

theorem map_fields {α : Type} (hp : p.names.Nodup) (get : Field → α) :
    p.fields.map get = p.names.filterMap fun name => (p.field? name).map get := by
  rw [names, List.filterMap_map, ← List.filterMap_eq_map]
  refine List.filterMap_congr fun f hf => ?_
  rw [Function.comp_apply, Function.comp_apply, field?_of_mem hp hf]
  rfl

/-- **The parts of a product's generator are those found for its
fields**, as for a derived product. -/
theorem generator_eq (hp : p.names.Nodup) :
    p.generator = .product p (p.names.filterMap p.generatorOf?) :=
  congrArg (Generator.product p) (map_fields hp Field.generator)

/-- The parts of a product's enumerator are those found for its fields. -/
theorem enumerator_eq (hp : p.names.Nodup) :
    p.enumerator = .product p (p.names.filterMap p.enumeratorOf?) :=
  congrArg (Enumerator.product p) (map_fields hp Field.enumerator)

end Product

namespace Derived

/-- Deriving without overrides changes nothing that is found. -/
theorem iterate_derive (d : Derived) (n : Nat) :
    (derive^[n] d).generator = d.generator ∧ (derive^[n] d).enumerator = d.enumerator := by
  induction n with
  | zero => exact ⟨rfl, rfl⟩
  | succ n ih =>
    rw [Function.iterate_succ_apply']
    exact ih

/-- **A chain of derivations amounts to one product.** Its overrides can be
set in a copy of the product at its root without a refusal, and then every
name finds in the copy what it finds on the chain, or is unknown to both
in the same words. So the two take their parts from the same places, and
have one signature. Where nothing was overridden it is the product itself
whose parts are found, however long the chain. -/
theorem flatten_agrees :
    (∀ d : Derived, d.WellFormed → ∃ q, d.flatten = .ok q ∧
      (∀ name, d.getGenerator name = q.getGenerator name) ∧
      (∀ name, d.getEnumerator name = q.getEnumerator name) ∧
      (∃ parts, d.generator = .product d.basic parts ∧ q.generator = .product q parts) ∧
      (∃ parts, d.enumerator = .product d.basic parts ∧ q.enumerator = .product q parts) ∧
      (Ty.derived d).signature = q.signature) ∧
    (∀ (p : Product) (n : Nat), p.WellFormed →
      (derive^[n] p.derive).generator = p.generator ∧
      (derive^[n] p.derive).enumerator = p.enumerator) := by
  refine ⟨fun d hd => ?_, fun p n hp => ?_⟩
  · obtain ⟨q, hflat, hq, hgen, henum⟩ := hd.flatten_spec
    have hlabel : q.label = d.basic.label := congrArg Layout.label hq.name
    have hdistinct : q.names.Nodup := by
      obtain ⟨-, -, hnames⟩ := hd.basic
      rwa [hq.names]
    refine ⟨q, hflat, fun name => ?_, fun name => ?_, ⟨_, rfl, ?_⟩, ⟨_, rfl, ?_⟩, ?_⟩
    · rw [getGenerator, Product.getGenerator, hgen, hlabel]
    · rw [getEnumerator, Product.getEnumerator, henum, hlabel]
    · rw [Product.generator_eq hdistinct, hq.names, funext hgen]
    · rw [Product.enumerator_eq hdistinct, hq.names, funext henum]
    · rw [Ty.signature, Ty.layout, layout_eq_basic, Product.signature, hq.layout_eq]
  · rw [(iterate_derive p.derive n).1, (iterate_derive p.derive n).2]
    obtain ⟨-, -, hdistinct⟩ := hp
    rw [Product.generator_eq hdistinct, Product.enumerator_eq hdistinct]
    exact ⟨rfl, rfl⟩

/-- A pair of integers, specialized twice. The nearest generator of the
first integer hides the other one, and the second integer has its
enumerator from the farther derivation. -/
theorem flatten_agrees_pair :
    let p := Product.tuple [.int, .int]
    let far : Derived := ⟨.product p, [("_v0", .uniform 0 9)], [("_v1", .range ⟨0, 3⟩)]⟩
    let d : Derived := ⟨.derived far, [("_v0", .uniform 5 5)], []⟩
    p.WellFormed ∧ d.WellFormed ∧
    (∃ q, d.flatten = .ok q ∧
      q.getGenerator "_v0" = .ok (.uniform 5 5) ∧
      q.getEnumerator "_v1" = .ok (.range ⟨0, 3⟩) ∧
      q.getGenerator "x" = .error (.unknownField "(anonymous)" "x")) ∧
    (derive^[3] p.derive).generator = p.generator := by
  intro p far d
  have hp : p.WellFormed := by
    refine Product.wellFormed_tuple fun t ht => ?_
    simp only [List.mem_cons, List.not_mem_nil, or_false, or_self] at ht
    exact ht ▸ .int
  have hdigit : (Generator.uniform 0 9).WellFormed := .uniform (by decide)
  have hfive : (Generator.uniform 5 5).WellFormed := .uniform (by decide)
  have hrange : (Enumerator.range ⟨0, 3⟩).WellFormed := .range (by decide)
  let own : Derived := ⟨.product p, [("_v0", .uniform 0 9)], []⟩
  have hown : p.derive.setGenerator "_v0" (.uniform 0 9) = .ok own := rfl
  have hfar : own.setEnumerator "_v1" (.range ⟨0, 3⟩) = .ok far := rfl
  have hset : far.derive.setGenerator "_v0" (.uniform 5 5) = .ok d := rfl
  have hd : d.WellFormed :=
    (((hp.derive.setGenerator hdigit hown).setEnumerator hrange hfar).derive).setGenerator
      hfive hset
  obtain ⟨hflatten, hderive⟩ := flatten_agrees
  obtain ⟨q, hflat, hgen, henum, -⟩ := hflatten d hd
  exact ⟨hp, hd, ⟨q, hflat, (hgen "_v0").symm, (henum "_v1").symm, (hgen "x").symm⟩,
    (hderive p 3 hp).1⟩

end Derived

end Specimen
