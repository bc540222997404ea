import Mathlib.Data.List.Perm.Subperm
import Mathlib.Data.String.Basic
import Mathlib.Order.Bounds.Basic
import Specimen.Proofs.Outcome
import Specimen.Proofs.WellFormed

/-!
# The checked constructors keep objects well-formed

Each operation on types, products, generators and functions is taken by
itself here: given well-formed objects it gives a well-formed one,
whenever it gives anything.

Not every operation checks what it needs. The anonymous product of some
types gives its fields names by position, and a product with one more
field looks for a position whose name is free; that the names are then
distinct is a fact about the names (`Product.freeIndex_spec`). The
overrides of a derived product are checked against the product at its
root only, which is the product all its ancestors are checked against.
-/

namespace Specimen

/-- A name is accepted when it is an identifier. -/
theorem checkIdentifier_eq_ok {name : String} {u : Unit} :
    checkIdentifier name = .ok u ↔ isIdentifier name = true := by
  unfold checkIdentifier
  by_cases h : isIdentifier name = true
  · rw [if_pos h]
    exact ⟨fun _ => h, fun _ => rfl⟩
  · rw [if_neg h]
    exact ⟨nofun, fun hname => absurd hname h⟩

/-! ## Types -/

/-- A range that is accepted has an element. -/
theorem Ty.wellFormed_of_ofRange {start stop : Int32} {t : Ty}
    (h : Ty.ofRange start stop = .ok t) : t.WellFormed := by
  unfold Ty.ofRange at h
  by_cases hlt : start < stop
  · rw [if_pos hlt] at h
    cases h
    exact .range hlt
  · rw [if_neg hlt] at h
    cases h

/-- A list that is accepted has a value, and only values of its type's
layout. -/
theorem Ty.WellFormed.ofValues {ty t : Ty} {items : List Value} (hty : ty.WellFormed)
    (h : ty.ofValues items = .ok t) : t.WellFormed := by
  obtain ⟨hempty, h⟩ := refuse_eq_ok.mp h
  split at h
  next => cases h
  next hbad =>
    cases h
    refine .values (.intro hty ?_ fun v hv => ?_)
    · rintro rfl
      exact hempty rfl
    · have hv := List.find?_eq_none.mp hbad v hv
      rwa [Bool.not_eq_true, Bool.not_eq_false'] at hv

/-! ## Products from fields -/

namespace Product

variable {p q : Product}

theorem wellFormed_empty {name : Option String} (h : name.all isIdentifier = true) :
    (empty name).WellFormed := .intro h nofun .nil

theorem names_push (p : Product) (name : String) (ty : Ty) :
    (p.push name ty).names = p.names ++ [name] := by
  unfold names push
  rw [List.map_append]
  rfl

theorem length_names (p : Product) : p.names.length = p.fields.length :=
  List.length_map _

/-- **One more field** of a name that is new. -/
theorem WellFormed.push (hp : p.WellFormed) {name : String}
    (hname : isIdentifier name = true) (hnew : name ∉ p.names) {ty : Ty}
    (hty : ty.WellFormed) : (p.push name ty).WellFormed := by
  obtain ⟨hlabel, hfields, hdistinct⟩ := hp
  refine .intro hlabel (fun f hf => ?_) ?_
  · rcases List.mem_append.mp hf with hf | hf
    · exact hfields f hf
    · rw [List.mem_singleton.mp hf]
      exact .intro hname hty hty.generator hty.enumerator
        (congrArg Layout.signature ty.layout_outputType_generator)
        (congrArg Layout.signature ty.layout_outputType_enumerator)
  · rw [names_push, ← List.concat_eq_append, List.nodup_concat]
    exact ⟨hnew, hdistinct⟩

/-- **When a field is added**: its name, if it has one, is an identifier,
and the name it gets is new. -/
theorem add_eq_ok {name : Option String} {ty : Ty} :
    p.add name ty = .ok q ↔ name.all isIdentifier = true ∧
      name.getD (autoName p.fields.length) ∉ p.names ∧
      p.push (name.getD (autoName p.fields.length)) ty = q := by
  have hstep : (if p.hasField (name.getD (autoName p.fields.length)) = true
      then .error (.duplicateField p.label (name.getD (autoName p.fields.length)))
      else .ok (p.push (name.getD (autoName p.fields.length)) ty) : Except Error Product)
        = .ok q ↔
      name.getD (autoName p.fields.length) ∉ p.names ∧
        p.push (name.getD (autoName p.fields.length)) ty = q :=
    refuse_eq_ok.trans (and_congr (not_congr hasField_iff) pure_eq_ok)
  cases name with
  | none => exact hstep.trans (and_iff_right rfl).symm
  | some n =>
    rw [← hstep]
    refine bind_eq_ok.trans ⟨?_, ?_⟩
    · rintro ⟨_, hcheck, h⟩
      exact ⟨checkIdentifier_eq_ok.mp hcheck, h⟩
    · rintro ⟨hname, h⟩
      exact ⟨(), checkIdentifier_eq_ok.mpr hname, h⟩

theorem isIdentifier_getD {name : Option String} (h : name.all isIdentifier = true)
    (index : Nat) : isIdentifier (name.getD (autoName index)) = true := by
  cases name with
  | none => exact isIdentifier_autoName index
  | some n => exact h

theorem WellFormed.add (hp : p.WellFormed) {name : Option String} {ty : Ty}
    (hty : ty.WellFormed) (h : p.add name ty = .ok q) : q.WellFormed := by
  obtain ⟨hname, hnew, rfl⟩ := add_eq_ok.mp h
  exact hp.push (isIdentifier_getD hname _) hnew hty

/-- Adding fields one after another. -/
theorem WellFormed.addAll (hp : p.WellFormed) {fields : List (Option String × Ty)}
    (hty : ∀ f ∈ fields, f.2.WellFormed)
    (h : fields.foldlM (fun p f => p.add f.1 f.2) p = .ok q) : q.WellFormed := by
  induction fields generalizing p with
  | nil => exact pure_eq_ok.mp h ▸ hp
  | cons f fields ih =>
    rw [List.foldlM_cons, bind_eq_ok] at h
    obtain ⟨r, hadd, h⟩ := h
    rw [List.forall_mem_cons] at hty
    exact ih (hp.add hty.1 hadd) hty.2 h

/-- **The product of some fields.** -/
theorem wellFormed_of_ofFields {name : Option String} {fields : List (Option String × Ty)}
    (hty : ∀ f ∈ fields, f.2.WellFormed) (h : ofFields name fields = .ok p) :
    p.WellFormed := by
  cases name with
  | none => exact (wellFormed_empty rfl).addAll hty h
  | some n =>
    obtain ⟨_, hname, h⟩ := bind_eq_ok.mp h
    have hlabel : (some n).all isIdentifier = true := checkIdentifier_eq_ok.mp hname
    exact (wellFormed_empty hlabel).addAll hty h

/-! ## Products from types -/

/-- Fields called by position, one after another. -/
theorem WellFormed.pushTypes (hp : p.WellFormed)
    (hnames : p.names = (List.range p.fields.length).map autoName) {types : List Ty}
    (hty : ∀ t ∈ types, t.WellFormed) :
    (types.foldl (fun p ty => p.push (autoName p.fields.length) ty) p).WellFormed := by
  induction types generalizing p with
  | nil => exact hp
  | cons t types ih =>
    rw [List.forall_mem_cons] at hty
    -- the names in use are those of the positions before
    have hnew : autoName p.fields.length ∉ p.names := by
      rw [hnames]
      exact autoName_not_mem_map_range _
    refine ih (hp.push (isIdentifier_autoName _) hnew hty.1) ?_ hty.2
    have hlen : (p.push (autoName p.fields.length) t).fields.length = p.fields.length + 1 :=
      List.length_append
    rw [names_push, hlen, List.range_succ, List.map_append, hnames]
    rfl

/-- **The anonymous product of some types.** -/
theorem wellFormed_tuple {types : List Ty} (hty : ∀ t ∈ types, t.WellFormed) :
    (tuple types).WellFormed := (wellFormed_empty rfl).pushTypes rfl hty

/-! ## One more field -/

/-- A product with the fields of another behind its own, which take
their values from their types. -/
theorem WellFormed.pushFields (hp : p.WellFormed) {fields : List Field}
    (hfields : ∀ f ∈ fields, f.WellFormed)
    (hdistinct : (p.names ++ fields.map Field.name).Nodup) :
    (fields.foldl (fun q f => q.push f.name f.ty) p).WellFormed := by
  induction fields generalizing p with
  | nil => exact hp
  | cons f fields ih =>
    rw [List.forall_mem_cons] at hfields
    obtain ⟨hname, hty, -, -, -, -⟩ := hfields.1
    have hnew : f.name ∉ p.names := fun hmem =>
      (List.nodup_append.mp hdistinct).2.2 _ hmem _ List.mem_cons_self rfl
    refine ih (hp.push hname hnew hty) hfields.2 ?_
    rw [names_push, List.append_assoc]
    exact hdistinct

/-- **What the search for a free position finds**: the least one from the
start on, unless all that were looked at are taken. Whether one of them is
free is a matter of how many names there are, and not of the search
(`exists_not_mem_of_injective`). -/
theorem freeIndex_spec (p : Product) (index fuel : Nat) :
    index ≤ p.freeIndex index fuel ∧ p.freeIndex index fuel ≤ index + fuel ∧
      (∀ i, index ≤ i → i < p.freeIndex index fuel → autoName i ∈ p.names) ∧
      (p.freeIndex index fuel < index + fuel → autoName (p.freeIndex index fuel) ∉ p.names) := by
  induction fuel generalizing index with
  | zero =>
    rw [freeIndex]
    exact ⟨Nat.le_refl _, Nat.le_refl _, fun i hi hlt => absurd hlt (Nat.not_lt_of_le hi),
      fun h => absurd h (Nat.lt_irrefl _)⟩
  | succ fuel ih =>
    rw [freeIndex]
    by_cases htaken : p.hasField (autoName index) = true
    · rw [if_pos htaken]
      obtain ⟨hge, hle, hbefore, hfree⟩ := ih (index + 1)
      have hshift : index + 1 + fuel = index + (fuel + 1) := by omega
      rw [hshift] at hle hfree
      refine ⟨Nat.le_of_succ_le hge, hle, fun i hi hlt => ?_, hfree⟩
      rcases Nat.eq_or_lt_of_le hi with rfl | hi
      · exact hasField_iff.mp htaken
      · exact hbefore i hi hlt
    · rw [if_neg htaken]
      exact ⟨Nat.le_refl _, Nat.le_add_right _ _,
        fun i hi hlt => absurd hlt (Nat.not_lt_of_le hi),
        fun _ hmem => htaken (hasField_iff.mpr hmem)⟩

/-- **A free position is found**, the least one: among one more candidates
than there are fields, one is no field's name. A search that is given more
turns finds the same. -/
theorem isLeast_freeIndex (p : Product) (index : Nat) {fuel : Nat} (h : p.fields.length ≤ fuel) :
    IsLeast {i | index ≤ i ∧ autoName i ∉ p.names} (p.freeIndex index fuel) := by
  obtain ⟨i, hge, hle, hfree⟩ := exists_not_mem_of_injective
    (fun _ _ => autoName_injective) p.names index
  rw [length_names] at hle
  obtain ⟨hstart, -, hbefore, hfound⟩ := p.freeIndex_spec index fuel
  have hfirst : ∀ j, index ≤ j → autoName j ∉ p.names → p.freeIndex index fuel ≤ j :=
    fun j hge hfree => Nat.le_of_not_lt fun hlt => hfree (hbefore j hge hlt)
  refine ⟨⟨hstart, ?_⟩, fun j hj => hfirst j hj.1 hj.2⟩
  rcases Nat.lt_or_ge (p.freeIndex index fuel) i with hlt | hlast
  · exact hfound (by omega)
  · rwa [Nat.le_antisymm (hfirst i hge hfree) hlast]

/-- **A product with one more field.** -/
theorem WellFormed.combine (hp : p.WellFormed) {ty : Ty} (hty : ty.WellFormed) :
    (p.combine ty).WellFormed := by
  obtain ⟨-, hfields, hdistinct⟩ := hp
  have hcopy : (p.fields.foldl (fun q f => q.push f.name f.ty) (empty none)).WellFormed :=
    (wellFormed_empty rfl).pushFields hfields hdistinct
  exact hcopy.push (isIdentifier_autoName _) (isLeast_freeIndex _ _ (Nat.le_refl _)).1.2 hty

end Product

/-- **The product of two types.** -/
theorem Ty.WellFormed.mul {left right : Ty} (hleft : left.WellFormed)
    (hright : right.WellFormed) : (left.mul right).WellFormed := by
  have htuple : ∀ {t : Ty}, t.WellFormed → (Product.tuple [t, right]).WellFormed := by
    intro t ht
    refine Product.wellFormed_tuple fun u hu => ?_
    rcases List.mem_cons.mp hu with rfl | hu
    · exact ht
    · exact List.mem_singleton.mp hu ▸ hright
  cases hleft with
  | int => exact htuple .int
  | range h => exact htuple (.range h)
  | values hv => exact htuple (.values hv)
  | product hp => exact hp.combine hright
  | derived hd => exact htuple (.derived hd)

/-! ## Overrides -/

namespace Product

variable {p q : Product}

/-- **When an override is accepted**: there is a field of the name, and it
has the signature. -/
theorem checkOverride_eq_ok {field : String} {output : Ty} {u : Unit} :
    p.checkOverride field output = .ok u ↔
      ∃ f, p.field? field = some f ∧ f.ty.signature = output.signature := by
  unfold checkOverride
  cases p.field? field with
  | none => exact ⟨nofun, nofun⟩
  | some f =>
    by_cases hsig : f.ty.signature = output.signature
    · refine ⟨fun _ => ⟨f, rfl, hsig⟩, fun _ => ?_⟩
      exact if_pos hsig
    · refine ⟨fun h => ?_, ?_⟩
      · dsimp only at h
        rw [if_neg hsig] at h
        cases h
      · rintro ⟨g, hg, hsig'⟩
        exact absurd (Option.some.inj hg ▸ hsig') hsig

theorem names_modify (p : Product) (field : String) {change : Field → Field}
    (hname : ∀ f, (change f).name = f.name) : (p.modify field change).names = p.names := by
  unfold names modify
  rw [List.map_map]
  refine List.map_congr_left fun f _ => ?_
  rw [Function.comp_apply]
  split
  · exact hname f
  · rfl

/-- A change to a field that keeps its name. -/
theorem WellFormed.modify (hp : p.WellFormed) {field : String} {change : Field → Field}
    (hname : ∀ f, (change f).name = f.name)
    (hchange : ∀ f ∈ p.fields, f.name = field → (change f).WellFormed) :
    (p.modify field change).WellFormed := by
  have hnames := p.names_modify field hname
  obtain ⟨hlabel, hfields, hdistinct⟩ := hp
  refine .intro hlabel (fun g hg => ?_) (hnames.symm ▸ hdistinct)
  obtain ⟨f, hf, rfl⟩ := List.mem_map.mp hg
  by_cases heq : (f.name == field) = true
  · rw [if_pos heq]
    exact hchange f hf (eq_of_beq heq)
  · rw [if_neg heq]
    exact hfields f hf

/-- The field an accepted override is for. -/
theorem WellFormed.signature_of_checkOverride (hp : p.WellFormed) {field : String}
    {output : Ty} {u : Unit} (h : p.checkOverride field output = .ok u) {f : Field}
    (hf : f ∈ p.fields) (hname : f.name = field) : output.signature = f.ty.signature := by
  obtain ⟨g, hg, hsig⟩ := checkOverride_eq_ok.mp h
  obtain ⟨-, -, hdistinct⟩ := hp
  have hfind := field?_of_mem hdistinct hf
  rw [hname, hg] at hfind
  rw [← hsig, Option.some.inj hfind]

/-- A field taken from another generator. -/
theorem WellFormed.setGenerator (hp : p.WellFormed) {field : String} {g : Generator}
    (hg : g.WellFormed) (h : p.setGenerator field g = .ok q) : q.WellFormed := by
  obtain ⟨_, hcheck, h⟩ := bind_eq_ok.mp h
  rw [← pure_eq_ok.mp h]
  refine hp.modify (fun _ => rfl) fun f hf hname => ?_
  have hsig := hp.signature_of_checkOverride hcheck hf hname
  obtain ⟨-, hfields, -⟩ := hp
  obtain ⟨hid, hty, -, henum, -, henumsig⟩ := hfields f hf
  exact .intro hid hty hg henum hsig henumsig

/-- A field taken from another enumerator. -/
theorem WellFormed.setEnumerator (hp : p.WellFormed) {field : String} {e : Enumerator}
    (he : e.WellFormed) (h : p.setEnumerator field e = .ok q) : q.WellFormed := by
  obtain ⟨_, hcheck, h⟩ := bind_eq_ok.mp h
  rw [← pure_eq_ok.mp h]
  refine hp.modify (fun _ => rfl) fun f hf hname => ?_
  have hsig := hp.signature_of_checkOverride hcheck hf hname
  obtain ⟨-, hfields, -⟩ := hp
  obtain ⟨hid, hty, hgen, -, hgensig, -⟩ := hfields f hf
  exact .intro hid hty hgen he hgensig hsig

theorem WellFormed.set (hp : p.WellFormed) {field : String} {ty : Ty} (hty : ty.WellFormed)
    (h : p.set field ty = .ok q) : q.WellFormed := by
  obtain ⟨r, hgen, henum⟩ := bind_eq_ok.mp h
  exact (hp.setGenerator hty.generator hgen).setEnumerator hty.enumerator henum

theorem WellFormed.derive (hp : p.WellFormed) : p.derive.WellFormed :=
  .intro (.product hp) nofun nofun ⟨.nil, nofun⟩ ⟨.nil, nofun⟩

end Product

namespace NameTable

variable {α : Type} {name : String} {a : α}

/-- What is in a table after an entry was put in. -/
theorem mem_of_mem_insert {t : NameTable α} {e : String × α} (h : e ∈ insert name a t) :
    e = (name, a) ∨ e ∈ t := by
  induction t with
  | nil => exact .inl (List.mem_singleton.mp h)
  | cons d rest ih =>
    obtain ⟨n, b⟩ := d
    unfold insert at h
    split at h
    · exact List.mem_cons.mp h
    · split at h
      · exact (List.mem_cons.mp h).imp_right (List.mem_cons_of_mem _)
      · rcases List.mem_cons.mp h with rfl | h
        · exact .inr List.mem_cons_self
        · exact (ih h).imp_right (List.mem_cons_of_mem _)

/-- A table stays sorted when an entry is put in. -/
theorem pairwise_insert {t : NameTable α} (h : t.Pairwise fun d e => d.1 < e.1) :
    (insert name a t).Pairwise fun d e => d.1 < e.1 := by
  induction t with
  | nil => exact List.pairwise_singleton _ _
  | cons d rest ih =>
    obtain ⟨n, b⟩ := d
    obtain ⟨hfirst, hrest⟩ := List.pairwise_cons.mp h
    unfold insert
    split
    next hlt =>
      refine List.pairwise_cons.mpr ⟨fun e he => ?_, h⟩
      rcases List.mem_cons.mp he with rfl | he
      · exact hlt
      · exact String.lt_trans hlt (hfirst e he)
    next hge =>
      split
      next heq =>
        rw [eq_of_beq heq] at hfirst
        exact List.pairwise_cons.mpr ⟨hfirst, hrest⟩
      next hne =>
        -- the new entry stays behind the first, whatever comes after it
        refine List.pairwise_cons.mpr ⟨fun e he => ?_, ih hrest⟩
        rcases mem_of_mem_insert he with rfl | he
        · refine lt_of_le_of_ne (String.not_lt.mp hge) ?_
          rintro rfl
          exact hne (beq_self_eq_true n)
        · exact hfirst e he

end NameTable

/-- **One more override that fits.** -/
theorem OverridesFit.insert {α : Type} {fields : List Field} {outputType : α → Ty}
    {overrides : NameTable α} (h : OverridesFit fields outputType overrides) {field : String}
    {a : α} (ha : ∃ f ∈ fields, f.name = field ∧ (outputType a).signature = f.ty.signature) :
    OverridesFit fields outputType (NameTable.insert field a overrides) := by
  refine ⟨NameTable.pairwise_insert h.sorted, fun e he => ?_⟩
  rcases NameTable.mem_of_mem_insert he with rfl | he
  · exact ha
  · exact h.fits e he

namespace Derived

variable {d d' : Derived}

/-- Overrides play no role for the product at the root. -/
theorem basic_congr (h : d.parent = d'.parent) : d.basic = d'.basic := by
  obtain ⟨parent, gs, es⟩ := d
  obtain ⟨parent', gs', es'⟩ := d'
  cases h
  cases parent <;> rfl

/-- The field of the product at the root that an accepted override is
for. -/
theorem exists_field_of_checkOverride {field : String} {output : Ty} {u : Unit}
    (h : d.basic.checkOverride field output = .ok u) :
    ∃ f ∈ d.basic.fields, f.name = field ∧ output.signature = f.ty.signature := by
  obtain ⟨f, hfind, hsig⟩ := Product.checkOverride_eq_ok.mp h
  obtain ⟨hf, hname⟩ := Product.mem_of_field? hfind
  exact ⟨f, hf, hname, hsig.symm⟩

theorem WellFormed.derive (hd : d.WellFormed) : d.derive.WellFormed :=
  .intro (.derived hd) nofun nofun ⟨.nil, nofun⟩ ⟨.nil, nofun⟩

/-- An overridden generator. -/
theorem WellFormed.setGenerator (hd : d.WellFormed) {field : String} {g : Generator}
    (hg : g.WellFormed) (h : d.setGenerator field g = .ok d') : d'.WellFormed := by
  obtain ⟨_, hcheck, h⟩ := bind_eq_ok.mp h
  have hbasic : d'.basic = d.basic := basic_congr (congrArg Derived.parent (pure_eq_ok.mp h)).symm
  obtain ⟨hparent, hgs, hes, hgfit, hefit⟩ := hd
  have hgfit' := hgfit.insert (exists_field_of_checkOverride hcheck)
  rw [← hbasic] at hgfit' hefit
  cases pure_eq_ok.mp h
  refine .intro hparent (fun e he => ?_) hes hgfit' hefit
  rcases NameTable.mem_of_mem_insert he with rfl | he
  · exact hg
  · exact hgs e he

/-- An overridden enumerator. -/
theorem WellFormed.setEnumerator (hd : d.WellFormed) {field : String} {e : Enumerator}
    (he : e.WellFormed) (h : d.setEnumerator field e = .ok d') : d'.WellFormed := by
  obtain ⟨_, hcheck, h⟩ := bind_eq_ok.mp h
  have hbasic : d'.basic = d.basic := basic_congr (congrArg Derived.parent (pure_eq_ok.mp h)).symm
  obtain ⟨hparent, hgs, hes, hgfit, hefit⟩ := hd
  have hefit' := hefit.insert (exists_field_of_checkOverride hcheck)
  rw [← hbasic] at hefit' hgfit
  cases pure_eq_ok.mp h
  refine .intro hparent hgs (fun x hx => ?_) hgfit hefit'
  rcases NameTable.mem_of_mem_insert hx with rfl | hx
  · exact he
  · exact hes x hx

theorem WellFormed.set (hd : d.WellFormed) {field : String} {ty : Ty} (hty : ty.WellFormed)
    (h : d.set field ty = .ok d') : d'.WellFormed := by
  obtain ⟨r, hgen, henum⟩ := bind_eq_ok.mp h
  exact (hd.setGenerator hty.generator hgen).setEnumerator hty.enumerator henum

end Derived

/-! ## Generators and functions -/

theorem Generator.wellFormed_of_ofBounds {min max : Int32} {g : Generator}
    (h : Generator.ofBounds min max = .ok g) : g.WellFormed := by
  obtain ⟨hlt, h⟩ := refuse_eq_ok.mp h
  cases h
  exact .uniform (Int32.not_lt.mp hlt)

theorem Ty.WellFormed.ofVariable {ty : Ty} (hty : ty.WellFormed) {name : String}
    {g : Generator} (h : Generator.ofVariable name ty = .ok g) : g.WellFormed := by
  obtain ⟨_, hname, h⟩ := bind_eq_ok.mp h
  cases pure_eq_ok.mp h
  exact .runArgument (checkIdentifier_eq_ok.mp hname) hty

namespace Function

variable {f f' : Function}

theorem wellFormed_of_ofBody {name : String} {returns : Ty} (hreturns : returns.WellFormed)
    {body : FunctionBody} (h : ofBody name returns body = .ok f) : f.WellFormed := by
  obtain ⟨_, hname, h⟩ := bind_eq_ok.mp h
  cases pure_eq_ok.mp h
  exact .intro (checkIdentifier_eq_ok.mp hname) hreturns nofun .nil

/-- A parameter of a name that is accepted. -/
theorem WellFormed.addParam (hf : f.WellFormed) {name : String} {ty : Ty}
    (hty : ty.WellFormed) (h : f.addParam name ty = .ok f') : f'.WellFormed := by
  obtain ⟨_, hname, h⟩ := bind_eq_ok.mp h
  obtain ⟨hnew, h⟩ := refuse_eq_ok.mp h
  cases pure_eq_ok.mp h
  obtain ⟨hid, hreturns, hparams, hdistinct⟩ := hf
  refine .intro hid hreturns (fun p hp => ?_) ?_
  · rcases List.mem_append.mp hp with hp | hp
    · exact hparams p hp
    · rw [List.mem_singleton.mp hp]
      exact .intro (checkIdentifier_eq_ok.mp hname) hty
  · rw [List.map_append, List.map_singleton, ← List.concat_eq_append, List.nodup_concat]
    refine ⟨fun hmem => hnew ?_, hdistinct⟩
    obtain ⟨p, hp, heq⟩ := List.mem_map.mp hmem
    exact List.any_eq_true.mpr ⟨p, hp, beq_iff_eq.mpr heq⟩

/-- Accepted arguments have the signatures of their parameters. -/
theorem signatures_of_checkArguments {params : List Param} {args : List Generator} {u : Unit}
    (hlength : args.length = params.length) (h : f.checkArguments params args = .ok u) :
    args.map (fun g => g.outputType.signature) = params.map fun p => p.ty.signature := by
  induction params generalizing args with
  | nil => rw [List.length_eq_zero_iff.mp hlength]; rfl
  | cons p params ih =>
    cases args with
    | nil => cases hlength
    | cons g args =>
      rw [checkArguments] at h
      split at h
      next hsig =>
        rw [List.map_cons, List.map_cons, ih (Nat.succ.inj hlength) h, hsig]
      next => cases h

/-- **A call that is accepted.** -/
theorem WellFormed.call (hf : f.WellFormed) {args : List Generator}
    (hargs : ∀ g ∈ args, g.WellFormed) {g : Generator} (h : f.call args = .ok g) :
    g.WellFormed := by
  obtain ⟨hlength, h⟩ := refuse_eq_ok.mp h
  obtain ⟨_, hcheck, h⟩ := bind_eq_ok.mp h
  cases pure_eq_ok.mp h
  exact .call hf hargs (signatures_of_checkArguments (not_not.mp hlength) hcheck)

end Function

end Specimen
