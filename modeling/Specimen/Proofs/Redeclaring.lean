import Specimen.Proofs.Consistent

/-!
# Declaring again

A node that is declared is passed over when it is declared again, and so
is everything it leads to. That is easily said of a key: its declaration
is found, and nothing happens. The question is whether declaring a node
leaves anything behind that a second time would still have to declare.
It does not, because at the end of each declaration all that has begun
is written (`Program.Settled`), so the keys visited on the way are
declared for good.

`Program.DoneWith` says this of nodes at any later time, and
`Program.doneWith_of_reached` is the main statement. It ends with what
it means for sources. A program that was completed for a target and is
completed for it again gives the same source, whatever the arguments
are the second time: its variables keep the values they had.
-/

namespace Specimen

namespace Program

/-! ## What is left by any operations -/

section

variable {s s' : Program}

/-- **An operation only adds declarations**, and ends with nothing begun
that is not written. -/
theorem Next.settled (h : Next s s') (hs : Settled s []) (hwritten : Written s) :
    Settled s' [] ∧ Written s' ∧ s.declarations <+: s'.declarations := by
  obtain ⟨args, hsteps⟩ := h.steps hs hwritten
  have hs' : Settled { s with args } [] := hs
  have hwritten' : Written { s with args } := hwritten
  exact ⟨hsteps.settled hs', hsteps.written hwritten', hsteps.isPrefix⟩

/-- **Operations only add declarations**, and end with nothing begun that
is not written. -/
theorem Later.settled (h : Later s s') (hs : Settled s []) (hwritten : Written s) :
    Settled s' [] ∧ Written s' ∧ s.declarations <+: s'.declarations := by
  induction h with
  | refl => exact ⟨hs, hwritten, List.prefix_refl _⟩
  | tail _ hnext ih =>
    obtain ⟨hs', hwritten', hprefix⟩ := ih
    obtain ⟨hs'', hwritten'', hprefix'⟩ := hnext.settled hs' hwritten'
    exact ⟨hs'', hwritten'', hprefix.trans hprefix'⟩

theorem Reached.settled (h : Reached s) : Settled s [] ∧ Written s := by
  obtain ⟨workingDir, sourceDir, hlater⟩ := h
  obtain ⟨hs, hwritten, -⟩ := hlater.settled (settled_start workingDir sourceDir) rfl
  exact ⟨hs, hwritten⟩

theorem Later.declares (h : Later s s') (hs : Settled s []) (hwritten : Written s)
    {k : Node.Key} (hk : s.declares k = true) : s'.declares k = true := by
  obtain ⟨d, hd, hdk⟩ := declares_iff.mp hk
  exact declares_iff.mpr ⟨d, (h.settled hs hwritten).2.2.subset hd, hdk⟩

end

/-! ## Nodes that are done with -/

/-- Declaring nodes whose keys are visited changes nothing. -/
theorem emitAll_of_visits {s : Program} {calls : List Node}
    (h : ∀ c ∈ calls, s.visits c.key = true) : emitAll calls s = s := by
  induction calls with
  | nil => rfl
  | cons c calls ih =>
    rw [List.forall_mem_cons] at h
    show emitAll calls (emit c s) = s
    rw [emit_of_visits h.1, ih h.2]

/-- **Nodes are done with** when declaring them, with the calls they
need, or declaring anything they lead to, changes nothing any more, now
or after any operations. -/
def DoneWith (s : Program) (nodes calls : List Node) : Prop :=
  ∀ s', Later s s' → emitAll calls s' = s' ∧
    ∀ n ∈ nodes, ∀ m, n.LeadsTo m → emitAll m.calls s' = s' ∧ emit m s' = s'

/-- **Nodes that were declared are done with.** All calls for them are for
keys that are visited, and a call for such a key changes nothing. -/
theorem doneWith_emitAll {s : Program} (hs : Settled s []) (hwritten : Written s)
    (nodes : List Node) :
    (emitAll (nodes.flatMap Node.calls) s).DoneWith nodes (nodes.flatMap Node.calls) := by
  intro s' hlater
  obtain ⟨hsteps, hdeclares⟩ : Steps (fun _ => True) (s, [])
      (emitAll (nodes.flatMap Node.calls) s, []) ∧ _ :=
    steps_emitAll hs fun _ _ _ _ => trivial
  have hs₁ := hsteps.settled (x := (s, [])) hs
  have hwritten₁ := hsteps.written (x := (s, [])) hwritten
  have hs' := (hlater.settled hs₁ hwritten₁).1
  have hvisits : ∀ c ∈ nodes.flatMap Node.calls, s'.visits c.key = true := fun c hc =>
    (hs' c.key).mpr (.inl (hlater.declares hs₁ hwritten₁ (hdeclares c hc)))
  refine ⟨emitAll_of_visits hvisits, fun n hn m hnm => ?_⟩
  -- what a node leads to is called for it, with all calls of its own
  have hcalls : ∀ c ∈ m.calls, s'.visits c.key = true := fun c hc =>
    hvisits c (List.mem_flatMap.mpr
      ⟨n, hn, Node.mem_calls_of_mem_calls (Node.mem_calls_iff.mpr hnm) hc⟩)
  exact ⟨emitAll_of_visits hcalls, emit_of_visits (hcalls m m.self_mem_calls)⟩

/-- A program completed for a target is completed again with the same
source, and takes nothing but the new arguments. -/
theorem collect_again {s s₁ : Program} (hs : Settled s []) (hwritten : Written s) {t : Target}
    {args args' : RunArgs} {source : String} (h : s.collect t args = .ok (source, s₁))
    (hargs' : t.checkArgs args' = .ok ()) :
    s₁.collect t args' = .ok (source, { s₁ with args := args' }) := by
  obtain ⟨_, hargs, -⟩ := bind_eq_ok.mp h
  rw [collect_eq hs hwritten hargs] at h
  have hstart : Settled { s with args } [] := hs
  have hwritten' : Written { s with args } := hwritten
  obtain ⟨hsteps, hdeclares⟩ : Steps (fun _ => True) ({ s with args }, [])
      (emitAll t.calls { s with args }, []) ∧ _ := steps_emitAll hstart fun _ _ _ _ => trivial
  have hs₁ := hsteps.settled (x := ({ s with args }, [])) hstart
  have hwritten₁ := hsteps.written (x := ({ s with args }, [])) hwritten'
  cases h
  generalize emitAll t.calls { s with args } = s₁ at hs₁ hwritten₁ hdeclares ⊢
  have hagain : emitAll t.calls { s₁ with args := args' } = { s₁ with args := args' } :=
    emitAll_of_visits fun c hc => (hs₁ c.key).mpr (.inl (hdeclares c hc))
  rw [collect_eq hs₁ hwritten₁ hargs', hagain]
  rfl

/-- **What was declared is done with**, in any program that is reached:
declaring it again changes nothing, at any later time, and neither does
declaring anything it leads to. So a program that was completed for a
target is completed for it again with the same source, under any arguments
that fit: a variable keeps the value that it was declared with. -/
theorem doneWith_of_reached {s : Program} (h : Reached s) :
    (∀ t : Ty, (emitAll t.calls s).DoneWith t.classNode t.calls) ∧
    (∀ f : Function, (emitAll f.calls s).DoneWith [.function f] f.calls) ∧
    (∀ g : Generator, (emitAll g.calls s).DoneWith [.generator g] g.calls) ∧
    (∀ e : Enumerator, (emitAll e.calls s).DoneWith [.enumerator e] e.calls) ∧
    (∀ t : Target, (emitAll t.calls s).DoneWith [t.node] t.calls) ∧
    ∀ (t : Target) (args args' : RunArgs) (source : String) (s₁ : Program),
      s.collect t args = .ok (source, s₁) → t.checkArgs args' = .ok () →
      s₁.collect t args' = .ok (source, { s₁ with args := args' }) := by
  obtain ⟨hs, hwritten⟩ := h.settled
  have hnode : ∀ n : Node, (emitAll n.calls s).DoneWith [n] n.calls := fun n => by
    have hn := doneWith_emitAll hs hwritten [n]
    rwa [List.flatMap_singleton] at hn
  refine ⟨fun t => ?_, fun f => hnode (.function f), fun g => hnode (.generator g),
    fun e => hnode (.enumerator e), fun t => ?_, fun t args args' source s₁ hcollect hargs' =>
      collect_again hs hwritten hcollect hargs'⟩
  · rw [t.calls_eq]
    exact doneWith_emitAll hs hwritten t.classNode
  · rw [t.calls_eq]
    exact hnode t.node

/-- A variable given twice keeps its first value: the source of a program
completed with other arguments is the one it had. -/
theorem doneWith_of_reached_argument :
    let t : Target := .generator (.runArgument "n" .int)
    let args : RunArgs := [("n", .int 3)]
    let args' : RunArgs := [("n", .int 4)]
    Reached (start "/" "/src") ∧ t.checkArgs args = .ok () ∧ t.checkArgs args' = .ok () ∧
    ∃ source s, (start "/" "/src").collect t args = .ok (source, s) ∧
      s.collect t args' = .ok (source, { s with args := args' }) ∧
      (emitAll t.calls (start "/" "/src")).DoneWith [t.node] t.calls := by
  intro t args args'
  have hreached : Reached (start "/" "/src") := ⟨"/", "/src", .refl⟩
  obtain ⟨-, -, -, -, htarget, hagain⟩ := doneWith_of_reached hreached
  have hargs : t.checkArgs args = .ok () := rfl
  have hcollect := collect_eq (settled_start "/" "/src") rfl hargs
  exact ⟨hreached, hargs, rfl, _, _, hcollect, hagain t args args' _ _ hcollect rfl, htarget t⟩

end Program

end Specimen
