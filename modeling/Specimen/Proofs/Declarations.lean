import Specimen.Proofs.Consistent
import Specimen.Proofs.DeclaringInOrder

/-!
# The declarations of a target

A declaration is written at some time, from the names given until then,
and more names are given later. Seen from the end it makes no
difference: names that were given stay, so each declaration is what the
finished program would make of its node
(`Program.declarations_foldl_place`). With that, a source is known
without its history, as one piece of code for each new node.

What the run arguments have to do with it is little. They change no name
(`Program.Alike`), and no code but that of the variables they are for
(`Program.codeOf_eq_of_alike`).
-/

namespace Specimen

namespace Program

/-! ## Runs under different arguments -/

/-- The keys declared, in order, each with its name. -/
def outline (s : Program) : List (Node.Key × String) :=
  s.declarations.map fun d => (d.key, d.handle)

/-- **Programs that give the same names**: they differ in run arguments,
and so in code, but have named the same things. -/
structure Alike (s s' : Program) : Prop where
  /-- The same keys are visited. -/
  visited : s.visited = s'.visited
  /-- The same keys have the same names. -/
  outline : s.outline = s'.outline
  /-- The same names are used. -/
  usedNames : s.usedNames = s'.usedNames
  /-- The next number is the same. -/
  nextId : s.nextId = s'.nextId

section

variable {s s' : Program} (h : Alike s s')
include h

theorem Alike.handle_eq (k : Node.Key) : s.handle k = s'.handle k := by
  have hfind : ∀ s : Program, s.handle k =
      ((s.outline.find? fun e => e.1.same k).map Prod.snd).getD "" := fun s => by
    rw [Program.outline, List.find?_map, Option.map_map]
    rfl
  rw [hfind s, hfind s', h.outline]

theorem Alike.functionHead_eq (f : Function) : s.functionHead f = s'.functionHead f :=
  functionHead_congr fun m _ => h.handle_eq m.key

/-- A visit leaves programs alike, and takes the same name. -/
theorem Alike.visit (n : Node) :
    Alike (s.visit n).2 (s'.visit n).2 ∧ (s.visit n).1 = (s'.visit n).1 := by
  obtain ⟨hvisited, houtline, husedNames, hnextId⟩ := h
  refine ⟨⟨?_, ?_, ?_, ?_⟩, ?_⟩
  · rw [visited_visit, visited_visit, hvisited]
  · rwa [Program.outline, Program.outline, declarations_visit, declarations_visit]
  all_goals
    cases n with
    | productClass p =>
      simp [Program.visit, nameBefore, reserveClass_eq, classBase, husedNames, hnextId]
    | generator | enumerator | function => first | assumption | rfl

/-- Writing leaves programs alike. -/
theorem Alike.write (n : Node) (reserved : Option String) :
    Alike (s.write n reserved) (s'.write n reserved) := by
  obtain ⟨hvisited, houtline, husedNames, hnextId⟩ := h
  have hhandle : (s.declaration n reserved).handle = (s'.declaration n reserved).handle := by
    cases n <;> simp [declaration, nameAfter, reserveNumbered, freshId, hnextId]
  refine ⟨?_, ?_, ?_, ?_⟩
  · rwa [visited_write, visited_write]
  · rw [Program.outline, Program.outline, declarations_write, declarations_write,
      List.map_append, List.map_append]
    exact congrArg₂ _ houtline (congrArg (fun name => [(n.key, name)]) hhandle)
  · cases n <;> exact husedNames
  · cases n <;> simp [Program.write, nameAfter, reserveNumbered, freshId, hnextId]

/-- Placing a node leaves programs alike. -/
theorem Alike.place (n : Node) : Alike (s.place n) (s'.place n) := by
  have hvisits : s.visits n.key = s'.visits n.key := by rw [visits, visits, h.visited]
  obtain ⟨hvisit, hname⟩ := h.visit n
  unfold Program.place
  rw [hvisits, hname]
  split
  · exact h
  · exact hvisit.write n _

/-- **Placing nodes leaves programs alike.** -/
theorem Alike.foldl_place (calls : List Node) :
    Alike (calls.foldl Program.place s) (calls.foldl Program.place s') := by
  induction calls generalizing s s' with
  | nil => exact h
  | cons n calls ih => exact ih (h.place n)

end

/-! ## Code under different arguments -/

/-- **The code of a node under other arguments** is the same, unless the
node is a variable that is given another value. Its names are those of the
same keys, which were given in the same order. -/
theorem codeOf_eq_of_alike {s s' : Program} (h : Alike s s') {n : Node}
    (hargs : ∀ x ty, n = .generator (.runArgument x ty) →
      NameTable.find? x s.args = NameTable.find? x s'.args) (name : String) :
    s.codeOf name n = s'.codeOf name n := by
  have hvalues : s.codeOf name n = { s with args := s'.args }.codeOf name n := by
    cases n with
    | generator g =>
      cases g with
      | runArgument x ty =>
        rw [codeOf, codeOf, argumentExpression, argumentExpression, hargs x ty rfl]
        rfl
      | uniform | values | product | call => rfl
    | enumerator e => cases e <;> rfl
    | productClass | function => rfl
  have hsame : { s with args := s'.args }.args = s'.args := rfl
  rw [hvalues]
  exact codeOf_congr hsame (fun m _ => h.handle_eq m.key) name

/-! ## Declarations seen from the end -/

section

variable (s : Program) (n : Node) (reserved : Option String)

@[simp] theorem args_visit : (s.visit n).2.args = s.args := by
  cases n with
  | productClass p =>
    show (reserveClass _ p).2.args = _
    rw [reserveClass_eq]
  | generator | enumerator | function => rfl

@[simp] theorem args_write : (s.write n reserved).args = s.args := by
  cases n <;> rfl

theorem args_place : (s.place n).args = s.args := by
  unfold place
  split
  · rfl
  · rw [args_write, args_visit]

/-- **Placing nodes leaves the arguments as they are.** -/
theorem args_foldl_place (calls : List Node) : (calls.foldl place s).args = s.args := by
  induction calls generalizing s with
  | nil => rfl
  | cons n calls ih => exact (ih _).trans (s.args_place n)

/-- The code that is written of a node is that of the program before. -/
theorem code_declaration :
    (s.declaration n reserved).code = s.codeOf (s.declaration n reserved).handle n := by
  cases n <;> rfl

/-- **The declaration of a node**, as a program makes it from the names
it has given. -/
def declarationOf : Declaration := ⟨n.key, s.handle n.key, s.codeOf (s.handle n.key) n⟩

end

/-- The declaration of a node stays when more is declared, once it and
what it mentions are. -/
theorem declarationOf_of_isPrefix {s s' : Program} (h : s.declarations <+: s'.declarations)
    (hargs : s'.args = s.args) {n : Node} (hn : s.declares n.key = true)
    (hmentions : ∀ m ∈ n.mentions, s.declares m.key = true) :
    s'.declarationOf n = s.declarationOf n := by
  have hcode : s'.codeOf (s.handle n.key) n = s.codeOf (s.handle n.key) n :=
    codeOf_congr hargs (fun m hm => handle_of_isPrefix h (hmentions m hm)) _
  rw [declarationOf, declarationOf, handle_of_isPrefix h hn, hcode]

/-- The declaration of a node that was just written. -/
theorem declarationOf_write {s : Program} {n : Node} {reserved : Option String}
    (hnew : s.declares n.key = false) (hmentions : ∀ m ∈ n.mentions, s.declares m.key = true) :
    (s.write n reserved).declarationOf n = s.declaration n reserved := by
  have hhandle : (s.write n reserved).handle n.key = (s.declaration n reserved).handle := by
    have hnone : s.find? n.key = none :=
      Option.isNone_iff_eq_none.mp (Option.isSome_eq_false_iff.mp hnew)
    have hself : (s.declaration n reserved).key.same n.key = true := n.key.same_refl
    rw [handle, find?, declarations_write, List.find?_append, ← find?, hnone, List.find?_singleton,
      if_pos hself]
    rfl
  have hprefix : s.declarations <+: (s.write n reserved).declarations := by
    rw [declarations_write]
    exact List.prefix_append _ _
  have hcode : (s.write n reserved).codeOf (s.declaration n reserved).handle n
      = (s.declaration n reserved).code := by
    rw [code_declaration]
    exact codeOf_congr (args_write ..) (fun m hm => handle_of_isPrefix hprefix (hmentions m hm)) _
  rw [declarationOf, hhandle, hcode]
  rfl

/-- A new node that mentions only what is declared has its declaration
placed behind those that are there. -/
theorem declarations_place {s : Program} {nodes : List Node} {n : Node}
    (h : s.declarations = nodes.map s.declarationOf)
    (hnodes : ∀ m ∈ nodes, s.declares m.key = true ∧ ∀ c ∈ m.mentions, s.declares c.key = true)
    (hmentions : ∀ m ∈ n.mentions, s.declares m.key = true)
    (hvisits : s.visits n.key = false) (hnew : s.declares n.key = false) :
    (s.place n).declarations = (nodes ++ [n]).map (s.place n).declarationOf := by
  have hplace : s.place n = (s.visit n).2.write n (s.visit n).1 := by
    rw [place, hvisits, if_neg Bool.false_ne_true]
  have hdeclarations : (s.place n).declarations
      = s.declarations ++ [(s.visit n).2.declaration n (s.visit n).1] := by
    rw [hplace, declarations_write, declarations_visit]
  have hlast : (s.place n).declarationOf n = (s.visit n).2.declaration n (s.visit n).1 := by
    rw [hplace]
    exact declarationOf_write ((declares_visit n).trans hnew) fun m hm =>
      (declares_visit n).trans (hmentions m hm)
  have hrest : nodes.map (s.place n).declarationOf = nodes.map s.declarationOf :=
    List.map_congr_left fun m hm => declarationOf_of_isPrefix
      (hdeclarations ▸ List.prefix_append _ _) (s.args_place n) (hnodes m hm).1 (hnodes m hm).2
  rw [hdeclarations, List.map_append, hrest, h, List.map_singleton, hlast]

/-- **What is declared of nodes in order** are the declarations that the
program makes of the new ones in the end, if nothing was declared
before. -/
theorem declarations_foldl_place {s : Program} (hs : Settled s [])
    (hdeclarations : s.declarations = []) {calls : List Node} (h : InOrder calls) :
    (calls.foldl place s).declarations
      = (newNodes calls).map (calls.foldl place s).declarationOf := by
  have hnone : ∀ k, s.visits k = false := fun k => by
    rw [Bool.eq_false_iff]
    intro hk
    rcases (hs k).mp hk with hk | ⟨b, hb, -⟩
    · obtain ⟨d, hd, -⟩ := declares_iff.mp hk
      rw [hdeclarations] at hd
      cases hd
    · cases hb
  induction calls using List.reverseRecOn with
  | nil => exact hdeclarations
  | append_singleton calls n ih =>
    obtain ⟨hsteps, hdeclares⟩ : Steps (fun _ => True) (s, []) (emitAll calls s, []) ∧ _ :=
      steps_emitAll hs fun _ _ _ _ => trivial
    rw [emitAll_eq hs h.of_append] at hsteps hdeclares
    have hsettled := hsteps.settled (x := (s, [])) hs
    have hvisits : (calls.foldl place s).visits n.key = callsFor calls n.key := by
      rw [visits_foldl_place, hnone, Bool.false_or]
    rw [List.foldl_append, newNodes_snoc]
    show ((calls.foldl place s).place n).declarations
      = List.map ((calls.foldl place s).place n).declarationOf _
    cases hcalled : callsFor calls n.key with
    | true =>
      have hplace : (calls.foldl place s).place n = calls.foldl place s := by
        rw [place, hvisits, if_pos hcalled]
      rw [hplace, if_pos rfl]
      exact ih h.of_append
    | false =>
      have hnew : (calls.foldl place s).declares n.key = false := by
        rw [Bool.eq_false_iff]
        intro hdeclared
        rw [(hsettled n.key).mpr (.inl hdeclared)] at hvisits
        exact absurd (hvisits.trans hcalled) Bool.noConfusion
      rw [if_neg Bool.false_ne_true]
      refine declarations_place (ih h.of_append) (fun m hm => ?_) (fun m hm => ?_)
        (hvisits.trans hcalled) hnew
      · have hm := newNodes_subset calls hm
        exact ⟨hdeclares m hm, fun c hc => hdeclares c (h.of_append.calls_subset hm
          (Node.mem_calls.mpr (.inl (Node.mem_below_of_mem_mentions hc))))⟩
      · exact hdeclares m (h.below_subset (Node.mem_below_of_mem_mentions hm))

/-- **What is called for is declared once**, as its first node. Later
nodes of the same key are passed over, and what is declared before and
behind has other keys. -/
theorem exists_declaration_of_callsFor {s : Program} (hs : Settled s [])
    (hdeclarations : s.declarations = []) {calls : List Node} (h : InOrder calls)
    {k : Node.Key} (hk : callsFor calls k = true) :
    ∃ n, n.key.same k = true ∧ ∃ before after,
      (calls.foldl place s).declarations
        = before ++ (calls.foldl place s).declarationOf n :: after ∧
      ∀ d ∈ before ++ after, d.key.same k = false := by
  rw [← callsFor_newNodes] at hk
  obtain ⟨n, hn, hkn⟩ := callsFor_iff.mp hk
  obtain ⟨before, after, hsplit⟩ := List.append_of_mem hn
  have honce := pairwise_newNodes calls
  rw [hsplit, List.pairwise_append, List.pairwise_cons] at honce
  have hothers : ∀ c ∈ before ++ after, c.key.same k = false := fun c hc => by
    rw [Bool.eq_false_iff]
    intro hck
    have hcn := Node.Key.same_trans hck hkn
    rcases List.mem_append.mp hc with hc | hc
    · rw [honce.2.2 c hc n List.mem_cons_self] at hcn
      cases hcn
    · have hnc := Node.Key.same_symm hcn
      rw [honce.2.1.1 c hc] at hnc
      cases hnc
  have hmade := declarations_foldl_place hs hdeclarations h
  rw [hsplit, List.map_append, List.map_cons] at hmade
  refine ⟨n, Node.Key.same_symm hkn, _, _, hmade, fun d hd => ?_⟩
  rw [← List.map_append] at hd
  obtain ⟨c, hc, rfl⟩ := List.mem_map.mp hd
  exact hothers c hc

end Program

end Specimen
