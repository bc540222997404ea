import Mathlib.Data.List.Induction
import Specimen.Proofs.Constructors

/-!
# Products of types

A product with one more field is built anew from the names and types of
its fields, its **items**, so nothing is left of the overrides it had
(`Product.combine_eq`). The new field gets the name of the first free
position from the number of fields on. The search for it looks at names
only, and it ends by itself: of one more candidates than there are fields
one is free, and a search that may go on finds no other
(`Product.isLeast_freeIndex`).

Types multiplied from the left give a tuple. The names in a tuple are
those of its positions, so the next position is always free, and what one
more factor adds is what one more type adds to the tuple
(`Product.combine_tuple`). A product that comes first is different: it
has names already, and they can be in the way.
-/

namespace Specimen

namespace Product

variable {p q : Product}

/-! ## Products made of items -/

/-- **The items of a product**: the names and types of its fields. -/
def items (p : Product) : List (String × Ty) := p.fields.map fun f => (f.name, f.ty)

/-- **The product of some items**, whose fields take their values from
their types. -/
def ofItems (name : Option String) (items : List (String × Ty)) : Product :=
  ⟨name, items.map fun i => ⟨i.1, i.2, i.2.generator, i.2.enumerator⟩⟩

@[simp] theorem items_ofItems (name : Option String) (l : List (String × Ty)) :
    (ofItems name l).items = l := by
  rw [items, ofItems, List.map_map]
  exact List.map_id l

theorem names_eq_items (p : Product) : p.names = p.items.map Prod.fst := by
  rw [names, items, List.map_map]
  rfl

theorem length_items (p : Product) : p.items.length = p.fields.length :=
  List.length_map _

theorem push_ofItems (name : Option String) (l : List (String × Ty)) (field : String) (t : Ty) :
    (ofItems name l).push field t = ofItems name (l ++ [(field, t)]) := by
  rw [ofItems, ofItems, List.map_append]
  rfl

/-- **Copying fields** copies their names and types. -/
theorem foldl_push_ofItems (fields : List Field) (l : List (String × Ty)) :
    fields.foldl (fun q f => q.push f.name f.ty) (ofItems none l)
      = ofItems none (l ++ fields.map fun f => (f.name, f.ty)) := by
  induction fields generalizing l with
  | nil => rw [List.foldl_nil, List.map_nil, List.append_nil]
  | cons f fields ih =>
    rw [List.foldl_cons, push_ofItems, ih, List.append_assoc, List.map_cons,
      List.singleton_append]

/-! ## One more field -/

/-- **The search for a free position looks at names only.** -/
theorem freeIndex_congr (h : p.names = q.names) (index fuel : Nat) :
    p.freeIndex index fuel = q.freeIndex index fuel := by
  have hfield : ∀ name, p.hasField name = q.hasField name := fun name => by
    rw [Bool.eq_iff_iff, hasField_iff, hasField_iff, h]
  induction fuel generalizing index with
  | zero => rfl
  | succ fuel ih => rw [freeIndex, freeIndex, hfield, ih]

/-- **What a product with one more field is made of.** -/
theorem combine_eq (p : Product) (t : Ty) :
    p.combine t
      = ofItems none
        (p.items ++ [(autoName (p.freeIndex p.fields.length p.fields.length), t)]) := by
  have hcopy : p.fields.foldl (fun q f => q.push f.name f.ty) (empty none)
      = ofItems none p.items := foldl_push_ofItems p.fields []
  have hnames : (ofItems none p.items).names = p.names := by
    rw [names_eq_items, items_ofItems, ← names_eq_items]
  have hlength : (ofItems none p.items).fields.length = p.fields.length := by
    rw [← length_items, items_ofItems, length_items]
  unfold combine
  dsimp only
  rw [hcopy, hlength, freeIndex_congr hnames, push_ofItems]

theorem names_combine (p : Product) (t : Ty) :
    (p.combine t).names
      = p.names ++ [autoName (p.freeIndex p.fields.length p.fields.length)] := by
  rw [combine_eq, names_eq_items, items_ofItems, List.map_append, ← names_eq_items]
  rfl

/-- **Names stay distinct**, because the new one is free. -/
theorem nodup_names_combine (h : p.names.Nodup) (t : Ty) : (p.combine t).names.Nodup := by
  rw [names_combine, ← List.concat_eq_append, List.nodup_concat]
  exact ⟨(p.isLeast_freeIndex _ (Nat.le_refl _)).1.2, h⟩

/-! ## Tuples -/

theorem length_fields_foldl_push (types : List Ty) (p : Product) :
    (types.foldl (fun p t => p.push (autoName p.fields.length) t) p).fields.length
      = p.fields.length + types.length := by
  induction types generalizing p with
  | nil => rfl
  | cons t types ih =>
    rw [List.foldl_cons, ih, push, List.length_append, List.length_singleton, List.length_cons,
      Nat.add_assoc, Nat.add_comm 1]

theorem length_fields_tuple (types : List Ty) : (tuple types).fields.length = types.length := by
  rw [tuple, length_fields_foldl_push]
  exact Nat.zero_add _

/-- **One more type** in a tuple. -/
theorem tuple_concat (types : List Ty) (t : Ty) :
    tuple (types ++ [t]) = (tuple types).push (autoName types.length) t := by
  rw [tuple, List.foldl_append, ← tuple, List.foldl_cons, List.foldl_nil, length_fields_tuple]

/-- The fields of a tuple take their values from their types, and are
called by their positions. -/
theorem tuple_eq_ofItems (types : List Ty) :
    ∃ l, tuple types = ofItems none l ∧ l.map Prod.fst = (List.range types.length).map autoName := by
  induction types using List.reverseRecOn with
  | nil => exact ⟨[], rfl, rfl⟩
  | append_singleton types t ih =>
    obtain ⟨l, htuple, hnames⟩ := ih
    refine ⟨l ++ [(autoName types.length, t)], ?_, ?_⟩
    · rw [tuple_concat, htuple, push_ofItems]
    · rw [List.map_append, hnames, List.length_append, List.length_singleton, List.range_succ,
        List.map_append]
      rfl

/-- **A tuple with one more field is a longer tuple**: the next position
is free. -/
theorem combine_tuple (types : List Ty) (t : Ty) :
    (tuple types).combine t = tuple (types ++ [t]) := by
  obtain ⟨l, htuple, hpositions⟩ := tuple_eq_ofItems types
  have hnames : (tuple types).names = (List.range types.length).map autoName := by
    rw [htuple, names_eq_items, items_ofItems, hpositions]
  have hfree : autoName types.length ∉ (tuple types).names := by
    rw [hnames]
    exact autoName_not_mem_map_range _
  have hindex : (tuple types).freeIndex types.length types.length = types.length := by
    have hleast := (tuple types).isLeast_freeIndex types.length
      (Nat.le_of_eq (length_fields_tuple types))
    exact Nat.le_antisymm (hleast.2 ⟨Nat.le_refl _, hfree⟩) hleast.1.1
  rw [combine_eq, length_fields_tuple, hindex, tuple_concat, htuple, items_ofItems, push_ofItems]

theorem foldl_combine_tuple (types more : List Ty) :
    more.foldl combine (tuple types) = tuple (types ++ more) := by
  induction more generalizing types with
  | nil => rw [List.foldl_nil, List.append_nil]
  | cons t more ih =>
    rw [List.foldl_cons, combine_tuple, ih, List.append_assoc, List.singleton_append]

/-- **A product with more fields, one after another**, has its own first. -/
theorem exists_items_foldl_combine (p : Product) (types : List Ty) :
    ∃ new, (types.foldl combine p).items = p.items ++ new ∧ new.map Prod.snd = types ∧
      (p.names.Nodup → (types.foldl combine p).names.Nodup) := by
  induction types generalizing p with
  | nil => exact ⟨[], (List.append_nil _).symm, rfl, id⟩
  | cons t types ih =>
    obtain ⟨new, hitems, htypes, hdistinct⟩ := ih (p.combine t)
    rw [combine_eq p t, items_ofItems, List.append_assoc, ← combine_eq] at hitems
    exact ⟨_, hitems, congrArg (t :: ·) htypes, fun h => hdistinct (nodup_names_combine h t)⟩

end Product

/-! ## Multiplying types -/

namespace Ty

/-- **Multiplies types from the left.** -/
def mulAll (t : Ty) (types : List Ty) : Ty := types.foldl (fun l r => .product (l.mul r)) t

theorem mulAll_product (p : Product) (types : List Ty) :
    (Ty.product p).mulAll types = .product (types.foldl Product.combine p) := by
  induction types generalizing p with
  | nil => rfl
  | cons t types ih => exact ih (p.combine t)

theorem mul_of_ne_product {a : Ty} (h : ∀ p, a ≠ .product p) (t : Ty) :
    a.mul t = Product.tuple [a, t] := by
  cases a with
  | product p => exact absurd rfl (h p)
  | _ => rfl

end Ty

/-- **What products of types are.** A product with one more field has its
own names and types and the new type, under the least free position from
the number of fields on; all fields take their values from their types.
The search for the position ends, however long it may go on, after at most
as many turns as there are fields. Multiplying types from the left gives
their tuple, unless the first of them is a product: then the others become
further fields of it, in their order. -/
theorem Product.combine_laws :
    (∀ (p : Product) (t : Ty), p.WellFormed →
      ∃ k, IsLeast {i | p.fields.length ≤ i ∧ autoName i ∉ p.names} k ∧
        k ≤ 2 * p.fields.length ∧
        (∀ turns, p.fields.length ≤ turns → p.freeIndex p.fields.length turns = k) ∧
        p.combine t = ofItems none (p.items ++ [(autoName k, t)]) ∧
        (p.combine t).names.Nodup) ∧
    (∀ (a : Ty) (types : List Ty), (∀ p, a ≠ .product p) → types ≠ [] →
      a.mulAll types = .product (tuple (a :: types))) ∧
    (∀ (p : Product) (types : List Ty), ∃ q new, (Ty.product p).mulAll types = .product q ∧
      q.items = p.items ++ new ∧ new.map Prod.snd = types ∧ (p.names.Nodup → q.names.Nodup)) := by
  refine ⟨fun p t hp => ?_, fun a types ha hne => ?_, fun p types => ?_⟩
  · have hleast := p.isLeast_freeIndex p.fields.length (Nat.le_refl _)
    obtain ⟨-, hbound, -, -⟩ := p.freeIndex_spec p.fields.length p.fields.length
    obtain ⟨-, -, hdistinct⟩ := hp
    refine ⟨_, hleast, by omega, fun turns hturns => ?_, combine_eq p t,
      nodup_names_combine hdistinct t⟩
    exact (p.isLeast_freeIndex p.fields.length hturns).unique hleast
  · obtain ⟨t, types, rfl⟩ := List.exists_cons_of_ne_nil hne
    show (Ty.product (a.mul t)).mulAll types = _
    rw [Ty.mul_of_ne_product ha, Ty.mulAll_product, foldl_combine_tuple]
    rfl
  · obtain ⟨new, hitems, htypes, hdistinct⟩ := p.exists_items_foldl_combine types
    exact ⟨_, new, Ty.mulAll_product p types, hitems, htypes, hdistinct⟩

/-- A product whose field is called as if it were at the next position. A
further field goes to the position behind, and the generator the field had
is not kept. Three integers are a tuple. -/
theorem Product.combine_laws_taken :
    let p : Product := ⟨some "P", [⟨"_v1", .int, .uniform 5 5, Ty.int.enumerator⟩]⟩
    p.WellFormed ∧
    p.combine .int = ofItems none [("_v1", .int), ("_v2", .int)] ∧
    (∀ q, Ty.int ≠ .product q) ∧ [Ty.int, .int] ≠ [] ∧
    Ty.int.mulAll [.int, .int] = .product (tuple [.int, .int, .int]) := by
  intro p
  have hp : p.WellFormed := by
    refine .intro (by decide) (fun f hf => ?_) (List.nodup_singleton "_v1")
    rw [List.mem_singleton.mp hf]
    exact .intro (by decide) .int (.uniform (by decide)) Ty.WellFormed.int.enumerator rfl rfl
  have hint : ∀ q, Ty.int ≠ .product q := nofun
  have hmore : [Ty.int, .int] ≠ [] := nofun
  obtain ⟨hcombine, hmul, -⟩ := combine_laws
  obtain ⟨k, -, -, hindex, heq, -⟩ := hcombine p .int hp
  -- the first position that is looked at is taken
  have htaken : p.freeIndex 1 1 = 2 := by decide +kernel
  have hk : k = 2 := (hindex 1 (Nat.le_refl 1)).symm.trans htaken
  refine ⟨hp, ?_, hint, hmore, hmul .int _ hint hmore⟩
  rw [heq, hk]
  rfl

end Specimen
