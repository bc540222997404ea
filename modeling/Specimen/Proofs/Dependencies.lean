import Mathlib.Data.List.Induction
import Mathlib.Logic.Relation
import Specimen.Declaration.Basic

/-!
# Dependencies are declared first

What a node needs declared is given by two descriptions. One is the list
of calls that declaring it makes, in which nodes stand as often as
somebody needs them. The other is a relation: a product's class depends
on the classes of its fields, a generator on those it takes values from,
a call on its function, and so on. The list is the relation written out.
A node's calls are those of its dependencies, one after another, and
then the node (`Node.calls_eq`), so every call comes behind calls for
all its node depends on, and nothing is called that the node does not
lead to.

A key is declared at its first call only. Whatever a node depends on has
its first call earlier, because some call for it comes earlier. That is
all a declaration in order needs, and it holds although a class is known
by its signature and may be called for through different products.

`Declares` collects these facts, and `declares_calls` is the main
statement: they hold of all kinds of objects.
-/

namespace Specimen

/-! ## The relation -/

namespace Node

/-- **The nodes that a node depends on directly.** -/
def dependencies : Node → List Node
  | productClass p => p.fields.flatMap fun f => f.ty.classNode
  | generator (.uniform _ _) => []
  | generator (.values v) => v.ty.classNode
  | generator (.product p parts) => parts.map .generator ++ [.productClass p]
  | generator (.call f args) => args.map .generator ++ [.function f]
  | generator (.runArgument _ ty) => ty.classNode
  | enumerator (.range _) => []
  | enumerator (.values v) => v.ty.classNode
  | enumerator (.product p parts) => parts.map .enumerator ++ [.productClass p]
  | enumerator (.once g) => [.generator g]
  | function f => f.returns.classNode ++ f.params.flatMap fun p => p.ty.classNode

/-- A node depends on another directly. -/
def DependsOn (n d : Node) : Prop := d ∈ n.dependencies

/-- **What a node leads to**: itself, what it depends on, what that
depends on, and so on. -/
abbrev LeadsTo : Node → Node → Prop := Relation.ReflTransGen DependsOn

end Node

/-! ## The calls of an object are those of its dependencies -/

theorem Derived.calls_eq (d : Derived) : d.calls = d.basic.calls := by
  obtain ⟨parent, _, _⟩ := d
  cases parent with
  | product p => rw [Derived.calls, Derived.basic]
  | derived d => rw [Derived.calls, Derived.basic, d.calls_eq]

/-- A type needs declared what its class needs. -/
theorem Ty.calls_eq (t : Ty) : t.calls = t.classNode.flatMap Node.calls := by
  cases t with
  | int => rw [Ty.calls, Ty.classNode, Ty.basicProduct?]; rfl
  | range _ => rw [Ty.calls, Ty.classNode, Ty.basicProduct?]; rfl
  | values v =>
    obtain ⟨ty, _⟩ := v
    rw [Ty.calls, ty.calls_eq, Ty.classNode, Ty.classNode, Ty.basicProduct?]
  | product p =>
    rw [Ty.calls, Ty.classNode, Ty.basicProduct?]
    exact (List.flatMap_singleton Node.calls (Node.productClass p)).symm
  | derived d =>
    rw [Ty.calls, d.calls_eq, Ty.classNode, Ty.basicProduct?]
    exact (List.flatMap_singleton Node.calls (Node.productClass d.basic)).symm

theorem fieldsCalls_eq_flatMap (fields : List Field) :
    fieldsCalls fields = fields.flatMap fun f => f.ty.calls := by
  induction fields with
  | nil => rw [fieldsCalls, List.flatMap_nil]
  | cons f fields ih =>
    obtain ⟨_, ty, _, _⟩ := f
    rw [fieldsCalls, ih, List.flatMap_cons]

theorem generatorsCalls_eq_flatMap (gs : List Generator) :
    generatorsCalls gs = gs.flatMap Generator.calls := by
  induction gs with
  | nil => rw [generatorsCalls, List.flatMap_nil]
  | cons g gs ih => rw [generatorsCalls, ih, List.flatMap_cons]

theorem enumeratorsCalls_eq_flatMap (es : List Enumerator) :
    enumeratorsCalls es = es.flatMap Enumerator.calls := by
  induction es with
  | nil => rw [enumeratorsCalls, List.flatMap_nil]
  | cons e es ih => rw [enumeratorsCalls, ih, List.flatMap_cons]

namespace Node

/-- **The nodes below a node**: those called for its dependencies. -/
def below (n : Node) : List Node := n.dependencies.flatMap Node.calls

/-- **The calls for a node** are those for its dependencies, and then the
one for itself. What is said of all calls is said by induction with this
equation. -/
theorem calls_eq (n : Node) : n.calls = n.below ++ [n] := by
  unfold below
  cases n with
  | productClass p =>
    obtain ⟨name, fields⟩ := p
    rw [Node.calls, Product.calls, dependencies, fieldsCalls_eq_flatMap, List.flatMap_assoc]
    simp only [Ty.calls_eq]
  | function f =>
    rw [Node.calls, Function.calls, dependencies, List.flatMap_append, List.flatMap_assoc]
    simp only [Ty.calls_eq]
  | generator g =>
    cases g with
    | uniform => rfl
    | values v => rw [Node.calls, Generator.calls, dependencies, Ty.calls_eq]
    | runArgument => rw [Node.calls, Generator.calls, dependencies, Ty.calls_eq]
    | product p parts =>
      rw [Node.calls, Generator.calls, dependencies, generatorsCalls_eq_flatMap,
        List.flatMap_append, List.flatMap_map, List.flatMap_singleton]
      rfl
    | call f args =>
      rw [Node.calls, Generator.calls, dependencies, generatorsCalls_eq_flatMap,
        List.flatMap_append, List.flatMap_map, List.flatMap_singleton]
      rfl
  | enumerator e =>
    cases e with
    | range => rfl
    | values v => rw [Node.calls, Enumerator.calls, dependencies, Ty.calls_eq]
    | once g =>
      rw [Node.calls, Enumerator.calls, dependencies, List.flatMap_singleton]
      rfl
    | product p parts =>
      rw [Node.calls, Enumerator.calls, dependencies, enumeratorsCalls_eq_flatMap,
        List.flatMap_append, List.flatMap_map, List.flatMap_singleton]
      rfl

theorem mem_calls {n c : Node} : c ∈ n.calls ↔ c ∈ n.below ∨ c = n := by
  rw [calls_eq, List.mem_append, List.mem_singleton]

theorem self_mem_calls (n : Node) : n ∈ n.calls := mem_calls.mpr (.inr rfl)

theorem mem_below {n c : Node} : c ∈ n.below ↔ ∃ d ∈ n.dependencies, c ∈ d.calls :=
  List.mem_flatMap

theorem length_calls_lt {n d : Node} (h : d ∈ n.dependencies) :
    d.calls.length < n.calls.length := by
  have hsub : d.calls.Sublist n.below := List.sublist_flatten_of_mem (List.mem_map_of_mem h)
  rw [n.calls_eq, List.length_append]
  exact Nat.lt_succ_of_le hsub.length_le

/-- **Induction on dependencies**: what holds of a node whenever it holds
of all that the node depends on holds of every node. -/
theorem dependency_induction {motive : Node → Prop}
    (step : ∀ n, (∀ d ∈ n.dependencies, motive d) → motive n) (n : Node) : motive n :=
  (measure fun n : Node => n.calls.length).wf.induction n fun m ih =>
    step m fun d hd => ih d (length_calls_lt hd)

/-- **The nodes called are those a node leads to.** -/
theorem mem_calls_iff {n c : Node} : c ∈ n.calls ↔ n.LeadsTo c := by
  induction n using dependency_induction with
  | step n ih =>
    show c ∈ n.calls ↔ Relation.ReflTransGen DependsOn n c
    rw [mem_calls, mem_below, Relation.ReflTransGen.cases_head_iff, or_comm]
    exact or_congr eq_comm (exists_congr fun d => and_congr_right fun hd => ih d hd)

theorem mem_calls_of_mem_calls {n d c : Node} (hd : d ∈ n.calls) (hc : c ∈ d.calls) :
    c ∈ n.calls :=
  mem_calls_iff.mpr ((mem_calls_iff.mp hd).trans (mem_calls_iff.mp hc))

theorem mem_below_of_mem_calls {n d c : Node} (hd : d ∈ n.below) (hc : c ∈ d.calls) :
    c ∈ n.below := by
  obtain ⟨m, hm, hmd⟩ := mem_below.mp hd
  exact mem_below.mpr ⟨m, hm, mem_calls_of_mem_calls hmd hc⟩

end Node

theorem Ty.mem_calls_of_mem_calls {t : Ty} {d c : Node} (hd : d ∈ t.calls) (hc : c ∈ d.calls) :
    c ∈ t.calls := by
  rw [t.calls_eq] at hd ⊢
  obtain ⟨m, hm, hmd⟩ := List.mem_flatMap.mp hd
  exact List.mem_flatMap.mpr ⟨m, hm, Node.mem_calls_of_mem_calls hmd hc⟩

/-! ## Lists in order -/

/-- A list with one more element is split at that element or before. -/
theorem split_of_snoc {α : Type} {l before after : List α} {a b : α}
    (h : l ++ [a] = before ++ b :: after) :
    (before = l ∧ b = a) ∨ ∃ rest, l = before ++ b :: rest := by
  rcases List.append_eq_append_iff.mp h with ⟨rest, hbefore, hrest⟩ | ⟨rest, hl, hrest⟩
  · cases rest with
    | nil => exact .inl ⟨hbefore.trans (List.append_nil l), (List.cons.inj hrest).1.symm⟩
    | cons c rest => cases rest <;> cases hrest
  · cases rest with
    | nil => exact .inl ⟨(hl.trans (List.append_nil before)).symm, (List.cons.inj hrest).1⟩
    | cons c rest =>
      obtain ⟨rfl, -⟩ := List.cons.inj hrest
      exact .inr ⟨rest, hl⟩

/-- **A list is in order** when everything its nodes depend on comes
before them. -/
def InOrder (calls : List Node) : Prop :=
  ∀ before n after, calls = before ++ n :: after → ∀ d ∈ n.dependencies, d ∈ before

namespace InOrder

theorem nil : InOrder [] := fun before _ _ h => by
  cases before <;> cases h

theorem of_append {calls rest : List Node} (h : InOrder (calls ++ rest)) : InOrder calls :=
  fun before n after heq => h before n (after ++ rest) (by
    rw [heq, List.append_assoc, List.cons_append])

theorem snoc {calls : List Node} (h : InOrder calls) {n : Node}
    (hn : ∀ d ∈ n.dependencies, d ∈ calls) : InOrder (calls ++ [n]) := by
  intro before m after heq d hd
  rcases split_of_snoc heq with ⟨rfl, rfl⟩ | ⟨rest, hcalls⟩
  · exact hn d hd
  · exact h before m rest hcalls d hd

/-- Lists in order, one after the other. -/
theorem append {xs ys : List Node} (hxs : InOrder xs) (hys : InOrder ys) :
    InOrder (xs ++ ys) := by
  intro before m after heq d hd
  rcases List.append_eq_append_iff.mp heq with ⟨rest, rfl, hrest⟩ | ⟨rest, hx, hrest⟩
  · exact List.mem_append_right xs (hys rest m after hrest d hd)
  · cases rest with
    | nil =>
      have hmem := hys [] m after hrest.symm d hd
      cases hmem
    | cons c rest =>
      obtain ⟨rfl, -⟩ := List.cons.inj hrest
      exact hxs before m rest hx d hd

theorem flatMap {α : Type} {f : α → List Node} {l : List α} (h : ∀ a ∈ l, InOrder (f a)) :
    InOrder (l.flatMap f) := by
  induction l with
  | nil => exact nil
  | cons a l ih =>
    rw [List.flatMap_cons]
    exact (h a List.mem_cons_self).append (ih fun b hb => h b (List.mem_cons_of_mem a hb))

end InOrder

/-- **The calls for a node are in order.** -/
theorem Node.inOrder_calls (n : Node) : InOrder n.calls := by
  induction n using dependency_induction with
  | step n ih =>
    rw [calls_eq]
    exact (InOrder.flatMap ih).snoc fun d hd => mem_below.mpr ⟨d, hd, d.self_mem_calls⟩

/-! ## First visits -/

namespace Node.Key

theorem same_refl (k : Key) : k.same k = true := same_iff.mpr rfl

theorem same_trans {i j k : Key} (hij : i.same j = true) (hjk : j.same k = true) :
    i.same k = true := same_iff.mpr ((same_iff.mp hij).trans (same_iff.mp hjk))

theorem same_symm {j k : Key} (h : j.same k = true) : k.same j = true :=
  same_iff.mpr (same_iff.mp h).symm

theorem same_comm (j k : Key) : j.same k = k.same j :=
  Bool.eq_iff_iff.mpr ⟨same_symm, same_symm⟩

/-- A key that is there already is not missed. -/
theorem any_same_or {keys : List Key} {j k : Key} (h : keys.any j.same = true) :
    (keys.any k.same || k.same j) = keys.any k.same := by
  cases hk : k.same j with
  | false => rw [Bool.or_false]
  | true =>
    obtain ⟨i, hi, hji⟩ := List.any_eq_true.mp h
    rw [Bool.or_true]
    exact (List.any_eq_true.mpr ⟨i, hi, same_trans hk hji⟩).symm

end Node.Key

/-- **Whether a list calls for a key.** -/
def callsFor (calls : List Node) (k : Node.Key) : Bool := calls.any fun c => k.same c.key

theorem callsFor_iff {calls : List Node} {k : Node.Key} :
    callsFor calls k = true ↔ ∃ c ∈ calls, k.same c.key = true := List.any_eq_true

theorem callsFor_eq_any (calls : List Node) (k : Node.Key) :
    callsFor calls k = (calls.map Node.key).any k.same := by
  rw [List.any_map]
  rfl

theorem callsFor_append (xs ys : List Node) (k : Node.Key) :
    callsFor (xs ++ ys) k = (callsFor xs k || callsFor ys k) := List.any_append

/-- **The nodes of a list whose keys are new** when they are called. -/
def newNodes (calls : List Node) : List Node :=
  (firstVisits calls).filterMap fun v => if v.2 then some v.1 else none

/-- The keys noted are those called for. -/
theorem any_noted (calls : List Node) (k : Node.Key) :
    (calls.foldl noteCall ([], [])).2.any k.same = callsFor calls k := by
  induction calls using List.reverseRecOn with
  | nil => rfl
  | append_singleton calls n ih =>
    rw [List.foldl_append, callsFor_append, ← ih]
    show (noteCall (calls.foldl noteCall ([], [])) n).2.any k.same = (_ || callsFor [n] k)
    have hn : callsFor [n] k = k.same n.key := Bool.or_false _
    rw [hn, noteCall]
    split
    next hseen => exact (Node.Key.any_same_or hseen).symm
    next => rw [List.any_cons, Bool.or_comm]

/-- The last call is a first visit when nothing before calls for its
key. -/
theorem firstVisits_snoc (calls : List Node) (n : Node) :
    firstVisits (calls ++ [n]) = firstVisits calls ++ [(n, !callsFor calls n.key)] := by
  unfold firstVisits
  rw [List.foldl_append]
  show (noteCall (calls.foldl noteCall ([], [])) n).1.reverse = _
  rw [noteCall, any_noted]
  cases callsFor calls n.key with
  | false => exact List.reverse_cons
  | true => exact List.reverse_cons

theorem map_fst_firstVisits (calls : List Node) :
    (firstVisits calls).map Prod.fst = calls := by
  induction calls using List.reverseRecOn with
  | nil => rfl
  | append_singleton calls n ih =>
    rw [firstVisits_snoc, List.map_append, ih]
    rfl

/-- A further call makes a new node when nothing before calls for its
key. -/
theorem newNodes_snoc (calls : List Node) (n : Node) :
    newNodes (calls ++ [n])
      = if callsFor calls n.key then newNodes calls else newNodes calls ++ [n] := by
  unfold newNodes
  rw [firstVisits_snoc, List.filterMap_append]
  cases callsFor calls n.key with
  | false => rfl
  | true => exact List.append_nil _

/-- New nodes are called. -/
theorem newNodes_subset (calls : List Node) : newNodes calls ⊆ calls := by
  induction calls using List.reverseRecOn with
  | nil => exact List.Subset.refl _
  | append_singleton calls n ih =>
    rw [newNodes_snoc]
    split
    · exact List.subset_append_of_subset_left _ ih
    · exact List.append_subset.mpr ⟨List.subset_append_of_subset_left _ ih,
        List.subset_append_right _ _⟩

/-- **Every key called for has a new node.** -/
theorem callsFor_newNodes (calls : List Node) (k : Node.Key) :
    callsFor (newNodes calls) k = callsFor calls k := by
  induction calls using List.reverseRecOn with
  | nil => rfl
  | append_singleton calls n ih =>
    rw [newNodes_snoc, callsFor_append]
    have hn : callsFor [n] k = k.same n.key := Bool.or_false _
    split
    next hcalled =>
      rw [callsFor_eq_any] at hcalled
      rw [ih, hn, callsFor_eq_any, Node.Key.any_same_or hcalled]
    next => rw [callsFor_append, ih]

/-- **No key has two new nodes.** -/
theorem pairwise_newNodes (calls : List Node) :
    (newNodes calls).Pairwise fun c d => c.key.same d.key = false := by
  induction calls using List.reverseRecOn with
  | nil => exact List.Pairwise.nil
  | append_singleton calls n ih =>
    rw [newNodes_snoc]
    split
    next => exact ih
    next hnew =>
      refine List.pairwise_append.mpr ⟨ih, List.pairwise_singleton _ _, fun c hc m hm => ?_⟩
      rw [List.mem_singleton.mp hm, Bool.eq_false_iff]
      intro hsame
      refine hnew (callsFor_iff.mpr ⟨c, newNodes_subset calls hc, Node.Key.same_symm hsame⟩)

/-- **The new nodes of a list in order are in order** as far as keys go:
what a new node depends on has a new node before it. It need not be the
node itself, since another of the same key may have come first. -/
theorem InOrder.newNodes {calls : List Node} (h : InOrder calls) :
    ∀ before n after, newNodes calls = before ++ n :: after →
      ∀ d ∈ n.dependencies, callsFor before d.key = true := by
  induction calls using List.reverseRecOn with
  | nil => exact fun before _ _ heq => by cases before <;> cases heq
  | append_singleton calls m ih =>
    intro before n after heq d hd
    rw [newNodes_snoc] at heq
    split at heq
    next => exact ih h.of_append before n after heq d hd
    next =>
      rcases split_of_snoc heq with ⟨rfl, rfl⟩ | ⟨rest, hnew⟩
      · -- the node is the last one, and its dependencies were called for
        rw [callsFor_newNodes]
        exact callsFor_iff.mpr ⟨d, h calls n [] rfl d hd, d.key.same_refl⟩
      · exact ih h.of_append before n rest hnew d hd

/-- **Things are met first where keys are new**: what is found at nodes,
each thing taken once, is what is found at the new ones, if things are
the same when the keys of their nodes are. -/
theorem foldl_addNew_filterMap {α : Type} {same : α → α → Bool} {part? : Node → Option α}
    (h : ∀ n a, part? n = some a → ∀ c : Node, (part? c).any (same a) = n.key.same c.key)
    (calls : List Node) :
    (calls.filterMap part?).foldl (addNew same) [] = (newNodes calls).filterMap part? := by
  induction calls using List.reverseRecOn with
  | nil => rfl
  | append_singleton calls n ih =>
    rw [List.filterMap_append, List.foldl_append, ih, newNodes_snoc]
    cases hn : part? n with
    | none =>
      rw [List.filterMap_cons_none hn]
      split
      · rfl
      · rw [List.filterMap_append, List.filterMap_cons_none hn]
        exact (List.append_nil _).symm
    | some a =>
      have hmet : ((newNodes calls).filterMap part?).any (same a) = callsFor calls n.key := by
        rw [← callsFor_newNodes, List.any_filterMap]
        refine congrArg (List.any _) (funext fun c => ?_)
        rw [← h n a hn c]
        cases part? c <;> rfl
      rw [List.filterMap_cons_some hn]
      show addNew same ((newNodes calls).filterMap part?) a = _
      rw [addNew, hmet]
      split
      · rfl
      · rw [List.filterMap_append, List.filterMap_cons_some hn]
        rfl

/-! ## The classes of a type -/

mutual

/-- **The products in a layout**, inner ones first. -/
def Layout.products : Layout → List Layout
  | .int => []
  | .product name fields => Layout.fieldsProducts fields ++ [.product name fields]

/-- The products in the layouts of fields. -/
def Layout.fieldsProducts : List LayoutField → List Layout
  | [] => []
  | ⟨_, layout⟩ :: rest => layout.products ++ Layout.fieldsProducts rest

end

/-- The key of the class of a layout. -/
def Layout.key (l : Layout) : Node.Key := .layout l.signature

mutual

/-- **A type needs the classes of its layout declared**, and nothing
else. -/
theorem Ty.map_key_calls : (t : Ty) → t.calls.map Node.key = t.layout.products.map Layout.key
  | .int => by rw [Ty.calls, Ty.layout, Layout.products]; rfl
  | .range _ => by rw [Ty.calls, Ty.layout, Layout.products]; rfl
  | .values ⟨ty, _⟩ => by rw [Ty.calls, Ty.layout, ty.map_key_calls]
  | .product p => by rw [Ty.calls, Ty.layout, p.map_key_calls]
  | .derived d => by rw [Ty.calls, Ty.layout, d.map_key_calls]

theorem Product.map_key_calls : (p : Product) →
    p.calls.map Node.key = p.layout.products.map Layout.key
  | ⟨name, fields⟩ => by
    rw [Product.calls, List.map_append, map_key_fieldsCalls fields, Product.layout,
      Layout.products, List.map_append]
    refine congrArg (_ ++ [Node.Key.layout ·]) ?_
    rw [Product.signature, Product.layout]

theorem map_key_fieldsCalls : (fields : List Field) →
    (fieldsCalls fields).map Node.key
      = (Layout.fieldsProducts (fieldLayouts fields)).map Layout.key
  | [] => by rw [fieldsCalls, fieldLayouts, Layout.fieldsProducts]; rfl
  | ⟨_, ty, _, _⟩ :: rest => by
    rw [fieldsCalls, fieldLayouts, Layout.fieldsProducts, List.map_append, List.map_append,
      ty.map_key_calls, map_key_fieldsCalls rest]

theorem Derived.map_key_calls : (d : Derived) →
    d.calls.map Node.key = d.layout.products.map Layout.key
  | ⟨.product p, _, _⟩ => by rw [Derived.calls, Derived.layout, p.map_key_calls]
  | ⟨.derived d, _, _⟩ => by rw [Derived.calls, Derived.layout, d.map_key_calls]

end

/-- What a type needs are classes. -/
theorem Ty.exists_of_mem_calls {t : Ty} {c : Node} (h : c ∈ t.calls) :
    ∃ p, c = .productClass p := by
  have hkey : c.key ∈ t.layout.products.map Layout.key := by
    rw [← t.map_key_calls]
    exact List.mem_map_of_mem h
  obtain ⟨l, -, hl⟩ := List.mem_map.mp hkey
  cases c with
  | productClass p => exact ⟨p, rfl⟩
  | generator | enumerator | function => cases hl

/-! ## The protocol -/

/-- **Calls declare some nodes**: each comes behind what it depends on,
they are what the nodes lead to and nothing else, and taking every key
at its first call keeps the order and takes every key once. -/
structure Declares (nodes calls : List Node) : Prop where
  /-- Everything a node depends on is called before the node. -/
  inOrder : InOrder calls
  /-- What is called is what the nodes lead to. -/
  mem_iff : ∀ n, n ∈ calls ↔ ∃ m ∈ nodes, m.LeadsTo n
  /-- First visits are noted in place. -/
  noted : (firstVisits calls).map Prod.fst = calls
  /-- No key is new twice. -/
  once : (newNodes calls).Pairwise fun c d => c.key.same d.key = false
  /-- The keys that are new at some call are those of what the nodes lead
  to. -/
  keys : ∀ k : Node.Key, (∃ c ∈ newNodes calls, k.same c.key = true) ↔
    ∃ m ∈ nodes, ∃ n, m.LeadsTo n ∧ k.same n.key = true
  /-- The key of everything a new node depends on is new before. -/
  newInOrder : ∀ before n after, newNodes calls = before ++ n :: after →
    ∀ d ∈ n.dependencies, ∃ c ∈ before, d.key.same c.key = true

/-- The calls for some nodes, one after another, declare them. -/
theorem declares_flatMap_calls (nodes : List Node) :
    Declares nodes (nodes.flatMap Node.calls) := by
  have horder : InOrder (nodes.flatMap Node.calls) := InOrder.flatMap fun n _ => n.inOrder_calls
  have hmem : ∀ n, n ∈ nodes.flatMap Node.calls ↔ ∃ m ∈ nodes, m.LeadsTo n := fun n => by
    rw [List.mem_flatMap]
    exact exists_congr fun m => and_congr_right fun _ => Node.mem_calls_iff
  refine ⟨horder, hmem, map_fst_firstVisits _, pairwise_newNodes _, fun k => ?_,
    fun before n after heq d hd => callsFor_iff.mp (horder.newNodes before n after heq d hd)⟩
  rw [← callsFor_iff, callsFor_newNodes, callsFor_iff]
  constructor
  · rintro ⟨c, hc, hk⟩
    obtain ⟨m, hm, hmc⟩ := (hmem c).mp hc
    exact ⟨m, hm, c, hmc, hk⟩
  · rintro ⟨m, hm, n, hmn, hk⟩
    exact ⟨n, (hmem n).mpr ⟨m, hm, hmn⟩, hk⟩

/-- The node that a target is declared for. -/
def Target.node : Target → Node
  | .generator g => .generator g
  | .enumerator e => .enumerator e

theorem Target.calls_eq (t : Target) : t.calls = t.node.calls := by
  cases t <;> rfl

theorem Target.inOrder_calls (t : Target) : InOrder t.calls := t.calls_eq ▸ t.node.inOrder_calls

/-- **Declaring makes the calls its dependencies need**, in order: for a
type the classes of its layout, and for anything else a declaration of its
own behind everything it leads to. The calls are closed, as whatever a
call depends on is called before it; and if each key is taken where it is
first met, this is still so, and no key is taken twice. -/
theorem declares_calls :
    (∀ t : Ty, Declares t.classNode t.calls ∧
      t.calls.map Node.key = t.layout.products.map Layout.key) ∧
    (∀ f : Function, Declares [.function f] f.calls) ∧
    (∀ g : Generator, Declares [.generator g] g.calls) ∧
    (∀ e : Enumerator, Declares [.enumerator e] e.calls) ∧
    (∀ t : Target, Declares [t.node] t.calls) := by
  have hnode : ∀ n : Node, Declares [n] n.calls := fun n => by
    have h := declares_flatMap_calls [n]
    rwa [List.flatMap_singleton] at h
  refine ⟨fun t => ⟨?_, t.map_key_calls⟩, fun f => hnode (.function f),
    fun g => hnode (.generator g), fun e => hnode (.enumerator e), fun t => ?_⟩
  · rw [t.calls_eq]
    exact declares_flatMap_calls t.classNode
  · rw [t.calls_eq]
    exact hnode t.node

end Specimen
