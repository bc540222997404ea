import Specimen.Proofs.Declaring

/-!
# Declaring in order

Declaring on demand is for those who declare out of order. In a list in
order everything a node mentions is declared by the time the node's turn
comes, so nothing is required any more: each node whose key is new is
visited and written (`Program.emitAll_eq`). What a program declares for
a list in order are then the new nodes of the list.
-/

namespace Specimen

/-! ## Lists in order are closed -/

namespace InOrder

/-- A list in order calls for everything that its nodes need. -/
theorem calls_subset {calls : List Node} (h : InOrder calls) {n : Node} (hn : n ∈ calls) :
    n.calls ⊆ calls := by
  induction n using Node.dependency_induction with
  | step n ih =>
    intro c hc
    rcases Node.mem_calls.mp hc with hc | rfl
    · obtain ⟨d, hd, hdc⟩ := Node.mem_below.mp hc
      obtain ⟨before, after, hsplit⟩ := List.append_of_mem hn
      have hmem : d ∈ calls := hsplit ▸ List.mem_append_left _ (h before n after hsplit d hd)
      exact ih d hd hmem hdc
    · exact hn

/-- What is below the last node of a list in order comes before it. -/
theorem below_subset {calls : List Node} {n : Node} (h : InOrder (calls ++ [n])) :
    n.below ⊆ calls := by
  intro c hc
  obtain ⟨d, hd, hdc⟩ := Node.mem_below.mp hc
  exact h.of_append.calls_subset (h calls n [] rfl d hd) hdc

end InOrder

namespace Program

/-! ## Placing nodes -/

/-- Declares a node that mentions only what is declared. -/
def place (s : Program) (n : Node) : Program :=
  if s.visits n.key then s else (s.visit n).2.write n (s.visit n).1

/-- A node that mentions only what is declared is placed. -/
theorem emit_eq_place {s : Program} {n : Node}
    (h : ∀ m ∈ n.mentions, s.declares m.key = true) : emit n s = s.place n := by
  have hmentions : ∀ m ∈ n.mentions, (s.visit n).2.declares m.key = true := fun m hm =>
    (declares_visit n).trans (h m hm)
  rw [emit_eq, requireAll_of_declares hmentions, place]

/-- **Declaring nodes in order places them.** Whatever a node mentions
comes before it in the list, so nothing else is declared on its way. -/
theorem emitAll_eq {s : Program} (hs : Settled s []) {calls : List Node} (h : InOrder calls) :
    emitAll calls s = calls.foldl place s := by
  induction calls using List.reverseRecOn with
  | nil => rfl
  | append_singleton calls n ih =>
    obtain ⟨-, hdeclares⟩ : Steps (fun _ => True) (s, []) (emitAll calls s, []) ∧ _ :=
      steps_emitAll hs fun _ _ _ _ => trivial
    have hplace : emit n (emitAll calls s) = (emitAll calls s).place n :=
      emit_eq_place fun m hm => hdeclares m (h.below_subset (Node.mem_below_of_mem_mentions hm))
    rw [List.foldl_append, ← ih h.of_append]
    show (calls ++ [n]).foldl (fun s c => emit c s) s = (emitAll calls s).place n
    rw [List.foldl_append]
    exact hplace

/-- Placing a node marks its key. -/
theorem visits_place (s : Program) (n : Node) (k : Node.Key) :
    (s.place n).visits k = (s.visits k || k.same n.key) := by
  unfold place
  split
  next hvisited => exact (Node.Key.any_same_or hvisited).symm
  next =>
    have hwrite : ((s.visit n).2.write n (s.visit n).1).visits k = (s.visit n).2.visits k := by
      rw [visits, visited_write]
      rfl
    rw [hwrite, Bool.eq_iff_iff, visits_visit, Bool.or_eq_true]

/-- **Placing nodes marks the keys called for.** -/
theorem visits_foldl_place (s : Program) (calls : List Node) (k : Node.Key) :
    (calls.foldl place s).visits k = (s.visits k || callsFor calls k) := by
  induction calls using List.reverseRecOn with
  | nil => exact (Bool.or_false _).symm
  | append_singleton calls n ih =>
    have hn : callsFor [n] k = k.same n.key := Bool.or_false _
    rw [List.foldl_append, callsFor_append, hn, ← Bool.or_assoc, ← ih]
    exact visits_place _ n k

/-- Placing nodes leaves the directories as they are. -/
theorem dirs_foldl_place (s : Program) (calls : List Node) :
    (calls.foldl place s).workingDir = s.workingDir ∧
      (calls.foldl place s).sourceDir = s.sourceDir := by
  induction calls generalizing s with
  | nil => exact ⟨rfl, rfl⟩
  | cons n calls ih =>
    have hplace : (s.place n).workingDir = s.workingDir ∧
        (s.place n).sourceDir = s.sourceDir := by
      unfold place
      split
      · exact ⟨rfl, rfl⟩
      · exact ⟨(dirs_write ..).1.trans (dirs_visit ..).1,
          (dirs_write ..).2.trans (dirs_visit ..).2⟩
    exact ⟨(ih _).1.trans hplace.1, (ih _).2.trans hplace.2⟩

/-- **What is declared of nodes are the new ones** among them, if nothing
was declared before. With the calls for a target in order, this lists the
declarations of its program without running it. -/
theorem map_key_foldl_place {s : Program} (hvisited : s.visited = [])
    (hdeclarations : s.declarations = []) (calls : List Node) :
    (calls.foldl place s).declarations.map Declaration.key
      = (newNodes calls).map Node.key := by
  induction calls using List.reverseRecOn with
  | nil =>
    show s.declarations.map Declaration.key = _
    rw [hdeclarations]
    rfl
  | append_singleton calls n ih =>
    have hvisits : (calls.foldl place s).visits n.key = callsFor calls n.key := by
      have hnone : s.visits n.key = false := by
        rw [visits, hvisited]
        rfl
      rw [visits_foldl_place, hnone, Bool.false_or]
    rw [List.foldl_append, newNodes_snoc]
    show ((calls.foldl place s).place n).declarations.map Declaration.key = _
    rw [place, hvisits]
    split
    · exact ih
    · rw [declarations_write, declarations_visit, List.map_append, List.map_append, ih]
      rfl

/-- **A program of its own for a target** has the target's nodes placed
in order. -/
theorem collect_start_eq (workingDir sourceDir : String) {t : Target} {args : RunArgs}
    (hargs : t.checkArgs args = .ok ()) :
    (start workingDir sourceDir).collect t args =
      let s := t.calls.foldl place { start workingDir sourceDir with args }
      .ok (Code.render (s.sourceCode t), s) := by
  have hsettled : Settled { start workingDir sourceDir with args } [] :=
    settled_start workingDir sourceDir
  rw [collect_eq (settled_start workingDir sourceDir) rfl hargs,
    emitAll_eq hsettled t.inOrder_calls]

/-- The source of a program of its own for a target. -/
theorem sourceOf_eq (workingDir sourceDir : String) {t : Target} {args : RunArgs}
    (hargs : t.checkArgs args = .ok ()) :
    sourceOf workingDir sourceDir t args = .ok (Code.render
      ((t.calls.foldl place { start workingDir sourceDir with args }).sourceCode t)) := by
  rw [sourceOf, collect_start_eq workingDir sourceDir hargs]
  rfl

end Program

end Specimen
