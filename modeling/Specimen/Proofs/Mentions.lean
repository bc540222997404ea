import Mathlib.Data.Prod.Lex
import Mathlib.Order.Lattice
import Specimen.Proofs.Dependencies
import Specimen.Proofs.SignatureKey

/-!
# No declaration waits for itself

A declaration is written once everything its text mentions is declared.
What it mentions is below it (`Node.mem_below_of_mem_mentions`), so a
list in order has it declared in time. When it is not, it is declared on
demand, in the middle of the declaration that wants it, whose own key is
visited by then and has no name. Nothing asks for that name: a node
below another has a different key (`Node.same_eq_false_of_mem_below`).

Nodes being different would not do, since products of one signature
share a class. What decreases is the **rank** of a key. For classes it
is the length of the signature, for generators and enumerators their
height, and both are the same for keys that are the same.
-/

namespace Specimen

/-! ## What is mentioned is below -/

namespace Node

theorem mem_below_of_mem_dependencies {n d : Node} (h : d ∈ n.dependencies) : d ∈ n.below :=
  mem_below.mpr ⟨d, h, d.self_mem_calls⟩

theorem mem_below_function {f : Function} {c : Node}
    (h : c ∈ f.returns.classNode ++ f.params.flatMap fun p => p.ty.classNode) :
    c ∈ (function f).below := mem_below_of_mem_dependencies h

theorem mem_below_call {f : Function} {args : List Generator} {c : Node}
    (h : c ∈ f.returns.classNode ++ f.params.flatMap fun p => p.ty.classNode) :
    c ∈ (generator (.call f args)).below :=
  mem_below.mpr ⟨function f, List.mem_append_right _ (List.mem_singleton_self _),
    mem_calls.mpr (.inl (mem_below_function h))⟩

/-- The class of what a generator yields is below it. -/
theorem mem_below_of_mem_outputType {g : Generator} {c : Node}
    (h : c ∈ g.outputType.classNode) : c ∈ (generator g).below := by
  cases g with
  | uniform => cases h
  | values v => exact mem_below_of_mem_dependencies h
  | product p parts => exact mem_below_of_mem_dependencies (List.mem_append_right _ h)
  | call f args => exact mem_below_call (List.mem_append_left _ h)
  | runArgument name ty => exact mem_below_of_mem_dependencies h

/-- **What a declaration mentions is below it.** -/
theorem mem_below_of_mem_mentions {n m : Node} (h : m ∈ n.mentions) : m ∈ n.below := by
  cases n with
  | productClass p => exact mem_below_of_mem_dependencies h
  | function f => exact mem_below_function h
  | generator g =>
    cases g with
    | uniform => cases h
    | values v => exact mem_below_of_mem_dependencies h
    | runArgument name ty => exact mem_below_of_mem_dependencies h
    | product p parts =>
      refine mem_below_of_mem_dependencies ?_
      rcases List.mem_cons.mp h with rfl | h
      · exact List.mem_append_right _ (List.mem_singleton_self _)
      · exact List.mem_append_left _ h
    | call f args =>
      rw [mentions, List.mem_append, List.mem_append] at h
      rcases h with (h | h) | h
      · exact mem_below_call (List.mem_append_left _ h)
      · exact mem_below_of_mem_dependencies (List.mem_append_left _ h)
      · exact mem_below_call (List.mem_append_right _ h)
  | enumerator e =>
    cases e with
    | range => cases h
    | values v => exact mem_below_of_mem_dependencies h
    | product p parts =>
      refine mem_below_of_mem_dependencies ?_
      rcases List.mem_cons.mp h with rfl | h
      · exact List.mem_append_right _ (List.mem_singleton_self _)
      · exact List.mem_append_left _ h
    | once g =>
      rcases List.mem_append.mp h with h | h
      · exact mem_below.mpr ⟨generator g, List.mem_singleton_self _,
          mem_calls.mpr (.inl (mem_below_of_mem_outputType h))⟩
      · exact mem_below_of_mem_dependencies h

end Node

/-- The class of what a target produces is below it. -/
theorem Target.mem_below_of_mem_elementType {t : Target} {c : Node}
    (h : c ∈ t.elementType.classNode) : c ∈ t.node.below := by
  cases t with
  | generator g => exact Node.mem_below_of_mem_outputType h
  | enumerator e =>
    cases e with
    | range => cases h
    | values v => exact Node.mem_below_of_mem_dependencies h
    | product p parts =>
      exact Node.mem_below_of_mem_dependencies (List.mem_append_right _ h)
    | once g =>
      exact Node.mem_below.mpr ⟨.generator g, List.mem_singleton_self _,
        Node.mem_calls.mpr (.inl (Node.mem_below_of_mem_outputType h))⟩

/-! ## Heights -/

mutual

/-- **The height of a generator**: how deep parts and arguments are
nested in it. -/
def Generator.height : Generator → Nat
  | .uniform _ _ => 0
  | .values _ => 0
  | .product _ parts => generatorsHeight parts + 1
  | .call _ args => generatorsHeight args + 1
  | .runArgument _ _ => 0

/-- The greatest height of some generators. -/
def generatorsHeight : List Generator → Nat
  | [] => 0
  | g :: rest => max g.height (generatorsHeight rest)

end

mutual

/-- **The height of an enumerator**: how deep parts are nested in it. -/
def Enumerator.height : Enumerator → Nat
  | .range _ => 0
  | .values _ => 0
  | .product _ parts => enumeratorsHeight parts + 1
  | .once _ => 0

/-- The greatest height of some enumerators. -/
def enumeratorsHeight : List Enumerator → Nat
  | [] => 0
  | e :: rest => max e.height (enumeratorsHeight rest)

end

theorem height_le_generatorsHeight {gs : List Generator} {g : Generator} (h : g ∈ gs) :
    g.height ≤ generatorsHeight gs := by
  induction gs with
  | nil => cases h
  | cons head gs ih =>
    rw [generatorsHeight]
    rcases List.mem_cons.mp h with rfl | h
    · exact le_max_left _ _
    · exact (ih h).trans (le_max_right _ _)

theorem height_le_enumeratorsHeight {es : List Enumerator} {e : Enumerator} (h : e ∈ es) :
    e.height ≤ enumeratorsHeight es := by
  induction es with
  | nil => cases h
  | cons head es ih =>
    rw [enumeratorsHeight]
    rcases List.mem_cons.mp h with rfl | h
    · exact le_max_left _ _
    · exact (ih h).trans (le_max_right _ _)

mutual

/-- How files are spelled does not change the height. -/
theorem Generator.height_canonical : (g : Generator) → g.canonical.height = g.height
  | .uniform _ _ => by rw [Generator.canonical]
  | .values _ => by rw [Generator.canonical, Generator.height, Generator.height]
  | .product _ parts => by
    rw [Generator.canonical, Generator.height, Generator.height,
      generatorsHeight_canonical parts]
  | .call _ args => by
    rw [Generator.canonical, Generator.height, Generator.height,
      generatorsHeight_canonical args]
  | .runArgument _ _ => by rw [Generator.canonical, Generator.height, Generator.height]

theorem generatorsHeight_canonical : (gs : List Generator) →
    generatorsHeight (generatorsCanonical gs) = generatorsHeight gs
  | [] => by rw [generatorsCanonical]
  | g :: rest => by
    rw [generatorsCanonical, generatorsHeight, generatorsHeight, g.height_canonical,
      generatorsHeight_canonical rest]

end

mutual

theorem Enumerator.height_canonical : (e : Enumerator) → e.canonical.height = e.height
  | .range _ => by rw [Enumerator.canonical]
  | .values _ => by rw [Enumerator.canonical, Enumerator.height, Enumerator.height]
  | .product _ parts => by
    rw [Enumerator.canonical, Enumerator.height, Enumerator.height,
      enumeratorsHeight_canonical parts]
  | .once _ => by rw [Enumerator.canonical, Enumerator.height, Enumerator.height]

theorem enumeratorsHeight_canonical : (es : List Enumerator) →
    enumeratorsHeight (enumeratorsCanonical es) = enumeratorsHeight es
  | [] => by rw [enumeratorsCanonical]
  | e :: rest => by
    rw [enumeratorsCanonical, enumeratorsHeight, enumeratorsHeight, e.height_canonical,
      enumeratorsHeight_canonical rest]

end

/-! ## Signatures of fields -/

namespace Layout

theorem length_signature_lt_closing {f : LayoutField} {fields : List LayoutField}
    (h : f ∈ fields) : f.layout.signature.toList.length < (closing fields).length := by
  induction fields with
  | nil => cases h
  | cons g fields ih =>
    obtain ⟨name, l⟩ := g
    rw [closing_cons, List.length_append, List.length_cons, List.length_append]
    rcases List.mem_cons.mp h with rfl | h
    · show l.signature.toList.length < _
      omega
    · have hrest := ih h
      cases fields with
      | nil => cases h
      | cons g fields =>
        rw [behind, List.length_cons]
        omega

/-- **The signature of a field is shorter** than that of its product. -/
theorem length_signature_lt {f : LayoutField} {fields : List LayoutField} (h : f ∈ fields)
    (name : Option String) :
    f.layout.signature.length < (product name fields).signature.length := by
  rw [← String.length_toList, ← String.length_toList, toList_signature_product,
    List.length_append, List.length_cons]
  have hclosing := length_signature_lt_closing h
  omega

end Layout

/-! ## Ranks -/

namespace Node.Key

/-- **The rank of a key**: first its kind, then its size within the
kind. -/
def rank : Key → ℕ ×ₗ ℕ
  | layout signature => toLex (0, signature.length)
  | function _ => toLex (1, 0)
  | generator g => toLex (2, g.height)
  | enumerator e => toLex (3, e.height)

theorem rank_canonical (k : Key) : k.canonical.rank = k.rank := by
  cases k with
  | layout => rfl
  | function => rfl
  | generator g => exact congrArg (fun i => toLex (2, i)) g.height_canonical
  | enumerator e => exact congrArg (fun i => toLex (3, i)) e.height_canonical

theorem rank_eq_of_same {j k : Key} (h : j.same k = true) : j.rank = k.rank := by
  rw [← rank_canonical j, same_iff.mp h, rank_canonical]

end Node.Key

namespace Node

open Prod.Lex (toLex_lt_toLex)

/-- What stands for the class of a type has the type's signature. -/
theorem exists_of_mem_classNode {t : Ty} {c : Node} (h : c ∈ t.classNode) :
    ∃ p, t.basicProduct? = some p ∧ c = productClass p := by
  obtain ⟨p, hp, hc⟩ := Option.map_eq_some_iff.mp (Option.mem_toList.mp h)
  exact ⟨p, hp, hc.symm⟩

/-- Classes rank below everything else. -/
theorem rank_lt_of_mem_classNode {t : Ty} {c : Node} (h : c ∈ t.classNode) {kind : Nat}
    (hkind : 0 < kind) (size : Nat) : c.key.rank < toLex (kind, size) := by
  obtain ⟨p, -, rfl⟩ := exists_of_mem_classNode h
  exact toLex_lt_toLex.mpr (.inl hkind)

/-- **What a node depends on ranks below it.** Keys rank by their kinds
first, with classes below functions and these below generators and
enumerators, and within a kind by size. So a node is never among its own
dependencies, under any key that is the same. -/
theorem rank_lt_of_mem_dependencies {n d : Node} (h : d ∈ n.dependencies) :
    d.key.rank < n.key.rank := by
  cases n with
  | productClass p =>
    obtain ⟨f, hf, hd⟩ := List.mem_flatMap.mp h
    obtain ⟨q, hq, rfl⟩ := exists_of_mem_classNode hd
    refine toLex_lt_toLex.mpr (.inr ⟨rfl, ?_⟩)
    -- the class of a field's type has the field's signature
    have hlayout : q.layout = f.ty.layout := by rw [f.ty.layout_eq, hq]; rfl
    show q.signature.length < p.signature.length
    obtain ⟨name, fields⟩ := p
    rw [Product.signature, Product.signature, hlayout, Product.layout, fieldLayouts_eq_map]
    exact Layout.length_signature_lt (f := ⟨f.name, f.ty.layout⟩)
      (List.mem_map.mpr ⟨f, hf, rfl⟩) name
  | function f =>
    rcases List.mem_append.mp h with h | h
    · exact rank_lt_of_mem_classNode h Nat.one_pos 0
    · obtain ⟨p, -, hd⟩ := List.mem_flatMap.mp h
      exact rank_lt_of_mem_classNode hd Nat.one_pos 0
  | generator g =>
    cases g with
    | uniform => cases h
    | values v => exact rank_lt_of_mem_classNode h Nat.two_pos _
    | runArgument name ty => exact rank_lt_of_mem_classNode h Nat.two_pos _
    | product p parts =>
      rcases List.mem_append.mp h with h | h
      · obtain ⟨g, hg, rfl⟩ := List.mem_map.mp h
        refine toLex_lt_toLex.mpr (.inr ⟨rfl, ?_⟩)
        show g.height < (Generator.product p parts).height
        rw [Generator.height]
        exact Nat.lt_succ_of_le (height_le_generatorsHeight hg)
      · rw [List.mem_singleton.mp h]
        exact toLex_lt_toLex.mpr (.inl Nat.two_pos)
    | call f args =>
      rcases List.mem_append.mp h with h | h
      · obtain ⟨g, hg, rfl⟩ := List.mem_map.mp h
        refine toLex_lt_toLex.mpr (.inr ⟨rfl, ?_⟩)
        show g.height < (Generator.call f args).height
        rw [Generator.height]
        exact Nat.lt_succ_of_le (height_le_generatorsHeight hg)
      · rw [List.mem_singleton.mp h]
        exact toLex_lt_toLex.mpr (.inl Nat.one_lt_two)
  | enumerator e =>
    cases e with
    | range => cases h
    | values v => exact rank_lt_of_mem_classNode h (Nat.succ_pos 2) _
    | product p parts =>
      rcases List.mem_append.mp h with h | h
      · obtain ⟨e, he, rfl⟩ := List.mem_map.mp h
        refine toLex_lt_toLex.mpr (.inr ⟨rfl, ?_⟩)
        show e.height < (Enumerator.product p parts).height
        rw [Enumerator.height]
        exact Nat.lt_succ_of_le (height_le_enumeratorsHeight he)
      · rw [List.mem_singleton.mp h]
        exact toLex_lt_toLex.mpr (.inl (Nat.succ_pos 2))
    | once g =>
      rw [List.mem_singleton.mp h]
      exact toLex_lt_toLex.mpr (.inl (Nat.lt_succ_self 2))

/-- What is below a node ranks below it. -/
theorem rank_lt_of_mem_below {n c : Node} (h : c ∈ n.below) : c.key.rank < n.key.rank := by
  induction n using dependency_induction with
  | step n ih =>
    obtain ⟨d, hd, hc⟩ := mem_below.mp h
    have hlt := rank_lt_of_mem_dependencies hd
    rcases mem_calls.mp hc with hc | rfl
    · exact (ih d hd hc).trans hlt
    · exact hlt

/-- **A node below another has a different key.** -/
theorem same_eq_false_of_mem_below {n c : Node} (h : c ∈ n.below) :
    c.key.same n.key = false := by
  rw [Bool.eq_false_iff]
  intro hsame
  exact (rank_lt_of_mem_below h).ne (Key.rank_eq_of_same hsame)

end Node

end Specimen
