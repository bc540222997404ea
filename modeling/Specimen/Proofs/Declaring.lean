import Mathlib.Data.List.Basic
import Specimen.Program.Source
import Specimen.Proofs.GivenNames
import Specimen.Proofs.Mentions
import Specimen.Proofs.Outcome

/-!
# Declaring as a sequence of steps

Declaring a node may declare others in the middle of it, and these
others again. Seen from outside, it is a sequence of two kinds of steps.
A node is **visited**, or the node visited last among those not written
is **written** (`Program.Step`). A node is written only when everything
it mentions is declared, and that is what `Program.emits` proves of
declaring on demand. The point is that a key found visited is declared
already and not just begun, because what is begun lies above
(`Node.same_eq_false_of_mem_below`).

What a property of programs needs to hold after any declaring is then
that each of the two steps keeps it.
-/

namespace Specimen

namespace Program

/-! ## What visiting and writing change -/

section

variable (s : Program) (n : Node) (reserved : Option String)

/-- Taking a name for a class leaves the rest as it is. -/
theorem reserveClass_frame (p : Product) :
    (s.reserveClass p).2.visited = s.visited ∧
      (s.reserveClass p).2.declarations = s.declarations ∧
      (s.reserveClass p).2.sheet = s.sheet ∧
      (s.reserveClass p).2.workingDir = s.workingDir ∧
      (s.reserveClass p).2.sourceDir = s.sourceDir := by
  rw [reserveClass_eq]
  exact ⟨rfl, rfl, rfl, rfl, rfl⟩

@[simp] theorem visited_visit : (s.visit n).2.visited = s.visited ++ [n.key] := by
  cases n with
  | productClass p => exact (reserveClass_frame _ p).1
  | generator => rfl
  | enumerator => rfl
  | function => rfl

@[simp] theorem declarations_visit : (s.visit n).2.declarations = s.declarations := by
  cases n with
  | productClass p => exact (reserveClass_frame _ p).2.1
  | generator => rfl
  | enumerator => rfl
  | function => rfl

@[simp] theorem sheet_visit : (s.visit n).2.sheet = s.sheet := by
  cases n with
  | productClass p => exact (reserveClass_frame _ p).2.2.1
  | generator => rfl
  | enumerator => rfl
  | function => rfl

theorem dirs_visit : (s.visit n).2.workingDir = s.workingDir ∧
    (s.visit n).2.sourceDir = s.sourceDir := by
  cases n with
  | productClass p => exact (reserveClass_frame _ p).2.2.2
  | generator => exact ⟨rfl, rfl⟩
  | enumerator => exact ⟨rfl, rfl⟩
  | function => exact ⟨rfl, rfl⟩

/-- The declaration that is written of a node. -/
def declaration : Declaration :=
  ⟨n.key, (s.nameAfter n reserved).1,
    (s.nameAfter n reserved).2.codeOf (s.nameAfter n reserved).1 n⟩

@[simp] theorem visited_write : (s.write n reserved).visited = s.visited := by
  cases n <;> rfl

@[simp] theorem declarations_write :
    (s.write n reserved).declarations = s.declarations ++ [s.declaration n reserved] := by
  cases n <;> rfl

@[simp] theorem sheet_write :
    (s.write n reserved).sheet = s.sheet.writeAll (s.declaration n reserved).code := by
  cases n <;> rfl

theorem dirs_write : (s.write n reserved).workingDir = s.workingDir ∧
    (s.write n reserved).sourceDir = s.sourceDir := by
  cases n <;> exact ⟨rfl, rfl⟩

end

/-! ## Keys visited and keys declared -/

section

variable {s : Program} {k : Node.Key}

theorem visits_iff : s.visits k = true ↔ ∃ j ∈ s.visited, k.same j = true := List.any_eq_true

theorem declares_iff : s.declares k = true ↔ ∃ d ∈ s.declarations, d.key.same k = true :=
  List.find?_isSome

theorem mem_of_find? {d : Declaration} (h : s.find? k = some d) :
    d ∈ s.declarations ∧ d.key.same k = true :=
  ⟨List.mem_of_find?_eq_some h, List.find?_some (p := fun d : Declaration => d.key.same k) h⟩

theorem visits_visit {n : Node} :
    (s.visit n).2.visits k = true ↔ s.visits k = true ∨ k.same n.key = true := by
  have hlast : [n.key].any k.same = k.same n.key := Bool.or_false _
  rw [visits, visited_visit, List.any_append, Bool.or_eq_true, hlast]
  rfl

theorem declares_visit (n : Node) : (s.visit n).2.declares k = s.declares k := by
  rw [declares, find?, declarations_visit]
  rfl

/-- Writing a node declares its key. -/
theorem declares_write {n : Node} {reserved : Option String} :
    (s.write n reserved).declares k = true ↔ s.declares k = true ∨ n.key.same k = true := by
  rw [declares_iff, declares_iff, declarations_write]
  constructor
  · rintro ⟨d, hd, hk⟩
    rcases List.mem_append.mp hd with hd | hd
    · exact .inl ⟨d, hd, hk⟩
    · rw [List.mem_singleton.mp hd] at hk
      exact .inr hk
  · rintro (⟨d, hd, hk⟩ | hk)
    · exact ⟨d, List.mem_append_left _ hd, hk⟩
    · exact ⟨_, List.mem_append_right _ (List.mem_singleton_self _), hk⟩

end

/-! ## Names of declared keys -/

section

variable {s s' : Program}

theorem handle_congr {j k : Node.Key} (h : j.canonical = k.canonical) :
    s.handle j = s.handle k := by
  have hsame : (fun d : Declaration => d.key.same j) = fun d => d.key.same k := by
    funext d
    rw [Bool.eq_iff_iff, Node.Key.same_iff, Node.Key.same_iff, h]
  rw [handle, handle, find?, find?, hsame]

/-- A key that is declared keeps its name when more is declared. -/
theorem handle_of_isPrefix (h : s.declarations <+: s'.declarations) {k : Node.Key}
    (hk : s.declares k = true) : s'.handle k = s.handle k := by
  obtain ⟨more, hmore⟩ := h
  obtain ⟨d, hd⟩ := Option.isSome_iff_exists.mp hk
  have hfind : s'.find? k = s.find? k := by
    rw [find?, ← hmore, List.find?_append, ← find?, hd]
    rfl
  rw [handle, handle, hfind]

end

/-! ## Steps -/

/-- **A declaration that has begun**: its node, and the name it took. -/
structure Begun where
  /-- The node. -/
  node : Node
  /-- The name taken before. -/
  name : Option String

/-- **A step of declaring** nodes of some kind, from a program and what
has begun in it, the latest first. -/
inductive Step (P : Node → Prop) : Program × List Begun → Program × List Begun → Prop where
  /-- A node is visited. -/
  | visit {s : Program} {begun : List Begun} {n : Node} (hn : P n)
      (hnew : s.visits n.key = false) :
      Step P (s, begun) ((s.visit n).2, ⟨n, (s.visit n).1⟩ :: begun)
  /-- The node visited last is written. -/
  | write {s : Program} {begun : List Begun} {b : Begun}
      (hmentions : ∀ m ∈ b.node.mentions, s.declares m.key = true) :
      Step P (s, b :: begun) (s.write b.node b.name, begun)

/-- **Steps of declaring**, one after another. -/
abbrev Steps (P : Node → Prop) : Program × List Begun → Program × List Begun → Prop :=
  Relation.ReflTransGen (Step P)

section

variable {P : Node → Prop} {x y : Program × List Begun}

/-- **Steps only add declarations.** -/
theorem Steps.isPrefix (h : Steps P x y) : x.1.declarations <+: y.1.declarations := by
  induction h with
  | refl => exact List.prefix_refl _
  | tail _ hstep ih =>
    refine ih.trans ?_
    cases hstep with
    | visit => exact (declarations_visit ..).symm ▸ List.prefix_refl _
    | write => exact (declarations_write ..).symm ▸ List.prefix_append _ _

theorem Steps.declares (h : Steps P x y) {k : Node.Key} (hk : x.1.declares k = true) :
    y.1.declares k = true := by
  obtain ⟨d, hd, hdk⟩ := declares_iff.mp hk
  exact declares_iff.mpr ⟨d, h.isPrefix.subset hd, hdk⟩

end

/-- **A program is settled** but for what has begun: the keys visited are
those declared and those begun. -/
def Settled (s : Program) (begun : List Begun) : Prop :=
  ∀ k, s.visits k = true ↔ s.declares k = true ∨ ∃ b ∈ begun, b.node.key.same k = true

theorem settled_start (workingDir sourceDir : String) :
    Settled (start workingDir sourceDir) [] := fun _ => ⟨nofun, nofun⟩

/-- A step leaves a program settled. -/
theorem Step.settled {P : Node → Prop} {x y : Program × List Begun} (h : Step P x y)
    (hx : Settled x.1 x.2) : Settled y.1 y.2 := by
  intro k
  cases h with
  | @visit s begun n hn hnew =>
    show (s.visit n).2.visits k = true ↔ (s.visit n).2.declares k = true ∨
      ∃ b ∈ (⟨n, (s.visit n).1⟩ : Begun) :: begun, b.node.key.same k = true
    rw [visits_visit, hx k, declares_visit, or_assoc, List.exists_mem_cons_iff, or_comm (b := k.same _)]
    exact or_congr_right (or_congr_left ⟨Node.Key.same_symm, Node.Key.same_symm⟩)
  | @write s begun b hmentions =>
    have hvisits : (s.write b.node b.name).visits k = s.visits k := by
      rw [visits, visited_write]
      rfl
    show (s.write b.node b.name).visits k = true ↔
      (s.write b.node b.name).declares k = true ∨ ∃ c ∈ begun, c.node.key.same k = true
    rw [hvisits, hx k, declares_write, or_assoc]
    exact or_congr_right (List.exists_mem_cons_iff ..)

theorem Steps.settled {P : Node → Prop} {x y : Program × List Begun} (h : Steps P x y)
    (hx : Settled x.1 x.2) : Settled y.1 y.2 := by
  induction h with
  | refl => exact hx
  | tail _ hstep ih => exact hstep.settled ih

/-- **What is written** are the declarations, in order, and no block is
open. -/
def Written (s : Program) : Prop := s.sheet = ⟨Code.render s.declarationCode, 0⟩

/-- A step writes declarations only. -/
theorem Step.written {P : Node → Prop} {x y : Program × List Begun} (h : Step P x y)
    (hx : Written x.1) : Written y.1 := by
  cases h with
  | @visit s begun n _ _ =>
    show (s.visit n).2.sheet = _
    rw [sheet_visit, hx, declarationCode, declarationCode, declarations_visit]
  | @write s begun b _ =>
    show (s.write b.node b.name).sheet = _
    rw [sheet_write, Sheet.writeAll_eq, hx, declarationCode, declarationCode,
      declarations_write, List.flatMap_append, Code.render_append, List.flatMap_singleton]
    rfl

theorem Steps.written {P : Node → Prop} {x y : Program × List Begun} (h : Steps P x y)
    (hx : Written x.1) : Written y.1 := by
  induction h with
  | refl => exact hx
  | tail _ hstep ih => exact hstep.written ih

/-! ## Declaring takes steps -/

/-- **Declaring a node takes steps** that declare it, wherever it is
below all that has begun. -/
def Emits (P : Node → Prop) (n : Node) : Prop :=
  ∀ (s : Program) (begun : List Begun), Settled s begun →
    (∀ b ∈ begun, n ∈ b.node.below) → (∀ c ∈ n.calls, P c) →
    Steps P (s, begun) (emit n s, begun) ∧ (emit n s).declares n.key = true

section

variable {P : Node → Prop} {begun : List Begun} {s : Program}

/-- Declaring nodes in order takes steps that declare each of them. -/
theorem steps_emitAll_of_emits {calls : List Node} (h : ∀ c ∈ calls, Emits P c)
    (hs : Settled s begun) (hbelow : ∀ c ∈ calls, ∀ b ∈ begun, c ∈ b.node.below)
    (hP : ∀ c ∈ calls, ∀ d ∈ c.calls, P d) :
    Steps P (s, begun) (emitAll calls s, begun) ∧
      ∀ c ∈ calls, (emitAll calls s).declares c.key = true := by
  induction calls generalizing s with
  | nil => exact ⟨.refl, nofun⟩
  | cons c calls ih =>
    rw [List.forall_mem_cons] at h hbelow hP
    obtain ⟨hfirst, hc⟩ := h.1 s begun hs hbelow.1 hP.1
    obtain ⟨hrest, hcalls⟩ := ih h.2 (hfirst.settled hs) hbelow.2 hP.2
    exact ⟨hfirst.trans hrest, List.forall_mem_cons.mpr ⟨hrest.declares hc, hcalls⟩⟩

/-- Requiring nodes takes steps that declare each of them. -/
theorem steps_requireAll_of_emits {ns : List Node} (h : ∀ m ∈ ns, ∀ c ∈ m.calls, Emits P c)
    (hs : Settled s begun)
    (hbelow : ∀ m ∈ ns, ∀ c ∈ m.calls, ∀ b ∈ begun, c ∈ b.node.below)
    (hP : ∀ m ∈ ns, ∀ c ∈ m.calls, ∀ d ∈ c.calls, P d) :
    Steps P (s, begun) (s.requireAll ns, begun) ∧
      ∀ m ∈ ns, (s.requireAll ns).declares m.key = true := by
  induction ns generalizing s with
  | nil => exact ⟨.refl, nofun⟩
  | cons m ns ih =>
    rw [List.forall_mem_cons] at h hbelow hP
    have hfirst : Steps P (s, begun) (s.require m, begun) ∧
        (s.require m).declares m.key = true := by
      unfold require
      split
      next hm => exact ⟨.refl, hm⟩
      next =>
        obtain ⟨hsteps, hdeclares⟩ := steps_emitAll_of_emits h.1 hs hbelow.1 hP.1
        exact ⟨hsteps, hdeclares m m.self_mem_calls⟩
    obtain ⟨hrest, hns⟩ := ih h.2 (hfirst.1.settled hs) hbelow.2 hP.2
    exact ⟨hfirst.1.trans hrest, List.forall_mem_cons.mpr ⟨hrest.declares hfirst.2, hns⟩⟩

end

/-- Declaring a node takes steps if declaring all below it does. -/
theorem emits_of_below {P : Node → Prop} {n : Node} (h : ∀ c ∈ n.below, Emits P c) :
    Emits P n := by
  intro s begun hs hbelow hP
  by_cases hvisited : s.visits n.key = true
  · -- what has begun lies above and has another key, so the node is declared
    rw [emit_of_visits hvisited]
    rcases (hs n.key).mp hvisited with hdeclared | ⟨b, hb, hsame⟩
    · exact ⟨.refl, hdeclared⟩
    · have hne := Node.same_eq_false_of_mem_below (hbelow b hb)
      rw [Node.Key.same_symm hsame] at hne
      cases hne
  · rw [emit_eq, if_neg hvisited]
    have hvisit : Step P (s, begun) ((s.visit n).2, ⟨n, (s.visit n).1⟩ :: begun) :=
      .visit (hP n n.self_mem_calls) (Bool.eq_false_iff.mpr hvisited)
    have hmentions : ∀ m ∈ n.mentions, ∀ c ∈ m.calls, c ∈ n.below := fun m hm c hc =>
      Node.mem_below_of_mem_calls (Node.mem_below_of_mem_mentions hm) hc
    obtain ⟨hsteps, hdeclares⟩ := steps_requireAll_of_emits
      (fun m hm c hc => h c (hmentions m hm c hc)) (hvisit.settled hs)
      (fun m hm c hc => List.forall_mem_cons.mpr ⟨hmentions m hm c hc, fun b hb =>
        Node.mem_below_of_mem_calls (hbelow b hb)
          (Node.mem_calls.mpr (.inl (hmentions m hm c hc)))⟩)
      (fun m hm c hc d hd => hP d (Node.mem_calls.mpr (.inl
        (Node.mem_below_of_mem_calls (hmentions m hm c hc) hd))))
    refine ⟨(Relation.ReflTransGen.head hvisit hsteps).tail (.write hdeclares), ?_⟩
    exact declares_write.mpr (.inr n.key.same_refl)

/-- **Declaring any node takes steps** that declare it. By induction on
what is below the node; what its text mentions has been declared by the
time it is written. -/
theorem emits (P : Node → Prop) (n : Node) : Emits P n := by
  have hcalls : ∀ n : Node, ∀ c ∈ n.calls, Emits P c := fun n => by
    induction n using Node.dependency_induction with
    | step n ih =>
      have hbelow : ∀ c ∈ n.below, Emits P c := fun c hc => by
        obtain ⟨d, hd, hdc⟩ := Node.mem_below.mp hc
        exact ih d hd c hdc
      intro c hc
      rcases Node.mem_calls.mp hc with hc | rfl
      · exact hbelow c hc
      · exact emits_of_below hbelow
  exact hcalls n n n.self_mem_calls

/-! ## When nothing has begun -/

section

variable {P : Node → Prop} {s : Program} (hs : Settled s [])
include hs

theorem steps_emit {n : Node} (hP : ∀ c ∈ n.calls, P c) :
    Steps P (s, []) (emit n s, []) ∧ (emit n s).declares n.key = true :=
  emits P n s [] hs nofun hP

theorem steps_emitAll {calls : List Node} (hP : ∀ c ∈ calls, ∀ d ∈ c.calls, P d) :
    Steps P (s, []) (emitAll calls s, []) ∧
      ∀ c ∈ calls, (emitAll calls s).declares c.key = true :=
  steps_emitAll_of_emits (fun c _ => emits P c) hs (fun _ _ => nofun) hP

theorem steps_requireAll {ns : List Node} (hP : ∀ m ∈ ns, ∀ c ∈ m.calls, P c) :
    Steps P (s, []) (s.requireAll ns, []) ∧
      ∀ m ∈ ns, (s.requireAll ns).declares m.key = true :=
  steps_requireAll_of_emits (fun _ _ c _ => emits P c) hs (fun _ _ _ _ => nofun)
    fun m hm _ hc d hd => hP m hm d (Node.mem_calls_of_mem_calls hc hd)

theorem steps_require {n : Node} (hP : ∀ c ∈ n.calls, P c) :
    Steps P (s, []) (s.require n, []) ∧ (s.require n).declares n.key = true := by
  obtain ⟨hsteps, hdeclares⟩ := steps_requireAll hs (List.forall_mem_singleton.mpr hP)
  exact ⟨hsteps, hdeclares n (List.mem_singleton_self n)⟩

end

/-! ## What is declared is not declared again -/

section

variable {s : Program}

theorem require_of_declares {n : Node} (h : s.declares n.key = true) : s.require n = s := by
  rw [require, if_pos h]

/-- Requiring nodes that are declared changes nothing. -/
theorem requireAll_of_declares {ns : List Node} (h : ∀ m ∈ ns, s.declares m.key = true) :
    s.requireAll ns = s := by
  induction ns with
  | nil => rfl
  | cons m ns ih =>
    rw [List.forall_mem_cons] at h
    show (s.require m).requireAll ns = s
    rw [require_of_declares h.1, ih h.2]

theorem askType_of_declares {t : Ty} (h : ∀ m ∈ t.classNode, s.declares m.key = true) :
    s.askType t = (s.typeName t, s) := by
  rw [askType, requireAll_of_declares h]

/-- The name of a target that is declared. -/
theorem askTarget_of_declares {t : Target} (h : s.declares t.node.key = true) :
    s.askTarget t = (s.handle t.node.key, s) := by
  cases t with
  | generator g =>
    have hg : s.require (.generator g) = s := require_of_declares h
    rw [askTarget, askGenerator, hg]
    rfl
  | enumerator e =>
    have he : s.require (.enumerator e) = s := require_of_declares h
    rw [askTarget, askEnumerator, he]
    rfl

/-- **The code of a source**: what every program begins with, the
declarations, the files to include, and `main`. -/
def sourceCode (s : Program) (t : Target) : List Code :=
  preamble ++ s.declarationCode ++ includeCode s.includes
    ++ [mainCode t (s.typeName t.elementType) (s.handle t.node.key)]

/-- **Completing a program** for a target is declaring the target under
its arguments: what the rest of the source asks for is declared by
then. -/
theorem collect_eq (hs : Settled s []) (hwritten : Written s) {t : Target} {args : RunArgs}
    (h : t.checkArgs args = .ok ()) :
    s.collect t args =
      let s' := emitAll t.calls { s with args }
      .ok (Code.render (s'.sourceCode t), s') := by
  have hs' : Settled { s with args } [] := hs
  obtain ⟨hsteps, hdeclares⟩ : Steps (fun _ => True) ({ s with args }, [])
      (emitAll t.calls { s with args }, []) ∧ _ := steps_emitAll hs' fun _ _ _ _ => trivial
  have hwritten' := hsteps.written (x := ({ s with args }, [])) hwritten
  rw [collect, h]
  simp only [bind, Except.bind]
  generalize emitAll t.calls { s with args } = s' at hdeclares hwritten' ⊢
  rw [t.calls_eq] at hdeclares
  have hclass := askType_of_declares fun m hm =>
    hdeclares m (Node.mem_calls.mpr (.inl (t.mem_below_of_mem_elementType hm)))
  have htarget := askTarget_of_declares (hdeclares _ t.node.self_mem_calls)
  have hsource : s'.sourceAround t (s'.typeName t.elementType) (s'.handle t.node.key)
      = Code.render (s'.sourceCode t) := by
    rw [sourceAround, show s'.sheet = _ from hwritten', ← Code.render_append,
      ← Code.render_append, sourceCode, List.append_assoc, List.append_assoc, List.append_assoc]
  simp only [hclass, htarget, hsource]
  rfl

end

end Program

end Specimen
