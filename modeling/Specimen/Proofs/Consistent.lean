import Mathlib.Data.List.Pairwise
import Specimen.Proofs.ClosedUnits

/-!
# A program is consistent

Programs are declared into by different people in any order: nodes one
by one, a type or a target with all it needs, a name that is asked for
on the way, a source that is completed and then declared into further.
`Program.Next` is one such operation, and what is **reached** from the
program without declarations is what any number of them leads to.

A reached program is always **consistent** (`Program.Consistent`). The
keys visited are those with a declaration, what is written is the code
of the declarations, one closed unit after another and with no block
left open, and all names in a declaration but its own are those of
declarations before it. So whoever asks for a name is given one that
stands for something.

Within an operation this is not so: a node that is visited is not
declared yet. What holds all the time is `Program.Sound`, which takes
what has begun into account, and keeps holding at every step.
-/

namespace Specimen

/-- The name of its own that a node has. -/
def Node.ownName? : Node → Option String
  | productClass p => p.name
  | generator _ => none
  | enumerator _ => none
  | function f => some f.name

/-- **The name of its own** that a node has, if any, is an identifier. -/
def Node.Named (n : Node) : Prop := n.ownName?.all isIdentifier = true

instance : DecidablePred Node.Named := fun n =>
  inferInstanceAs (Decidable (n.ownName?.all isIdentifier = true))

/-- **A declaration is written after others**: its code is that of its
node, and depends only on the run arguments, on its own name and on
names of declarations before it. -/
def Declaration.WrittenAfter (before : List Declaration) (d : Declaration) : Prop :=
  ∃ (n : Node) (args : RunArgs), n.key = d.key ∧
    (∀ m ∈ n.mentions, ∃ e ∈ before, e.key.same m.key = true) ∧
    ∀ s : Program, s.args = args →
      (∀ m ∈ n.mentions, ∀ e ∈ before, e.key.same m.key = true → s.handle m.key = e.handle) →
      d.code = s.codeOf d.handle n

namespace Program

/-! ## Operations -/

/-- **An operation on a program.** Whatever it is given has identifiers
for names. -/
inductive Next (s : Program) : Program → Prop where
  /-- A node is declared. -/
  | emit {n : Node} (h : ∀ c ∈ n.calls, c.Named) : Next s (emit n s)
  /-- A node is declared with all it needs. -/
  | declare {n : Node} (h : ∀ c ∈ n.calls, c.Named) : Next s (emitAll n.calls s)
  /-- What a type needs is declared. -/
  | declareType {t : Ty} (h : ∀ c ∈ t.calls, c.Named) : Next s (emitAll t.calls s)
  /-- The name of a type is asked for. -/
  | askType {t : Ty} (h : ∀ c ∈ t.calls, c.Named) : Next s (s.askType t).2
  /-- The name of a generator is asked for. -/
  | askGenerator {g : Generator} (h : ∀ c ∈ g.calls, c.Named) : Next s (s.askGenerator g).2
  /-- The name of an enumerator is asked for. -/
  | askEnumerator {e : Enumerator} (h : ∀ c ∈ e.calls, c.Named) : Next s (s.askEnumerator e).2
  /-- The head of a function is asked for. -/
  | askFunctionHead {f : Function} (h : ∀ c ∈ f.calls, c.Named) : Next s (s.askFunctionHead f).2
  /-- The program is completed for a target. -/
  | collect {t : Target} {args : RunArgs} {source : String} {s' : Program}
      (h : ∀ c ∈ t.calls, c.Named) (hcollect : s.collect t args = .ok (source, s')) : Next s s'

/-- **What operations lead to.** -/
abbrev Later : Program → Program → Prop := Relation.ReflTransGen Next

/-- **A program that is reached** from one without declarations. -/
def Reached (s : Program) : Prop :=
  ∃ workingDir sourceDir, Later (start workingDir sourceDir) s

/-! ## Consistency -/

/-- **A consistent program.** Between two operations there is no trace of
the order in which names are given and blocks written within one: every
key visited has its block, every block is whole, and none mentions a
name that is given later. -/
structure Consistent (s : Program) : Prop where
  /-- What is written are the declarations, in order, and no block is
  open. -/
  sheet : s.sheet = ⟨Code.render s.declarationCode, 0⟩
  /-- The keys visited are those declared, and each has a name. -/
  visits_iff : ∀ k, s.visits k = true ↔
    ∃ d ∈ s.declarations, d.key.same k = true ∧ s.handle k = d.handle ∧ d.handle ≠ ""
  /-- No key is declared twice. -/
  once : s.declarations.Pairwise fun d e => d.key.same e.key = false
  /-- Each declaration is one closed unit, of the kind that its key says
  and under its name. -/
  closed : ∀ d ∈ s.declarations, ClosedUnit d.handle d.key d.code
  /-- A declaration is the code of a node, in which all names but its own
  are those of declarations before it. -/
  written : ∀ before d after, s.declarations = before ++ d :: after →
    ∃ (n : Node) (args : RunArgs), n.key = d.key ∧
      (∀ m ∈ n.mentions, ∃ e ∈ before,
        e.key.same m.key = true ∧ s.handle m.key = e.handle ∧ e.handle ≠ "") ∧
      ∀ s' : Program, s'.args = args →
        (∀ m ∈ n.mentions, s'.handle m.key = s.handle m.key) →
        d.code = s'.codeOf d.handle n

/-- **More is declared and written** behind what a program has. -/
def Extends (s s' : Program) : Prop :=
  ∃ more : List Declaration, s'.declarations = s.declarations ++ more ∧
    s'.sheet.text = s.sheet.text ++ Code.render (more.flatMap Declaration.code)

/-- **An answer that stands for something**: the name of what a key is
declared as. -/
def Answers (answer : String × Program) (k : Node.Key) : Prop :=
  ∃ d ∈ answer.2.declarations, d.key.same k = true ∧ answer.1 = d.handle ∧ d.handle ≠ ""

/-! ## Code depends on names -/

section

variable {s s' : Program}

theorem typeName_congr {t : Ty} (h : ∀ m ∈ t.classNode, s.handle m.key = s'.handle m.key) :
    s.typeName t = s'.typeName t := by
  unfold typeName
  cases hp : t.basicProduct? with
  | none => rfl
  | some p => exact h (.productClass p) (by rw [Ty.classNode, hp]; exact List.mem_singleton_self _)

theorem typeName_congr_of_mem {α : Type} {ty : α → Ty} {l : List α}
    (h : ∀ m ∈ l.flatMap fun a => (ty a).classNode, s.handle m.key = s'.handle m.key) :
    ∀ a ∈ l, s.typeName (ty a) = s'.typeName (ty a) := fun a ha =>
  typeName_congr fun m hm => h m (List.mem_flatMap.mpr ⟨a, ha, hm⟩)

/-- The head of a function depends on the names of its types. -/
theorem functionHead_congr {f : Function}
    (h : ∀ m ∈ (Node.function f).mentions, s.handle m.key = s'.handle m.key) :
    s.functionHead f = s'.functionHead f := by
  obtain ⟨hreturns, hparams⟩ := List.forall_mem_append.mp h
  have hmap : (f.params.map fun p => (p.name, s.typeName p.ty))
      = f.params.map fun p => (p.name, s'.typeName p.ty) :=
    List.map_congr_left fun p hp => congrArg _ (typeName_congr_of_mem hparams p hp)
  rw [functionHead, functionHead, typeName_congr hreturns, hmap]

theorem map_generatorName_congr {gs : List Generator}
    (h : ∀ m ∈ gs.map Node.generator, s.handle m.key = s'.handle m.key) :
    gs.map s.generatorName = gs.map s'.generatorName :=
  List.map_congr_left fun _ hg => h _ (List.mem_map_of_mem hg)

theorem map_enumeratorName_congr {es : List Enumerator}
    (h : ∀ m ∈ es.map Node.enumerator, s.handle m.key = s'.handle m.key) :
    es.map s.enumeratorName = es.map s'.enumeratorName :=
  List.map_congr_left fun _ he => h _ (List.mem_map_of_mem he)

/-- **The code of a node depends on the names it mentions**, on its own
and on the run arguments. So it may be compared between programs that
agree on these names, whatever else is declared in them. -/
theorem codeOf_congr {n : Node} (hargs : s.args = s'.args)
    (h : ∀ m ∈ n.mentions, s.handle m.key = s'.handle m.key) (name : String) :
    s.codeOf name n = s'.codeOf name n := by
  cases n with
  | productClass p =>
    have hmap : (p.fields.map fun f => (f.name, s.typeName f.ty))
        = p.fields.map fun f => (f.name, s'.typeName f.ty) :=
      List.map_congr_left fun f hf => congrArg _ (typeName_congr_of_mem h f hf)
    rw [codeOf, codeOf, hmap]
  | function f => rw [codeOf, codeOf, functionHead_congr h]
  | generator g =>
    cases g with
    | uniform => rfl
    | values v => rw [codeOf, codeOf, typeName_congr h]
    | product p parts =>
      obtain ⟨hclass, hparts⟩ := List.forall_mem_cons.mp h
      have hname : s.typeName (.product p) = s'.typeName (.product p) := hclass
      rw [codeOf, codeOf, hname, map_generatorName_congr hparts]
    | call f args =>
      obtain ⟨hhead, hparams⟩ := List.forall_mem_append.mp h
      obtain ⟨hreturns, hparts⟩ := List.forall_mem_append.mp hhead
      have htypes : (f.params.map fun p => s.typeName p.ty)
          = f.params.map fun p => s'.typeName p.ty :=
        List.map_congr_left (typeName_congr_of_mem hparams)
      rw [codeOf, codeOf, typeName_congr hreturns, map_generatorName_congr hparts, htypes]
    | runArgument x ty =>
      rw [codeOf, codeOf, argumentExpression, argumentExpression, typeName_congr h, hargs]
  | enumerator e =>
    cases e with
    | range => rfl
    | values v => rw [codeOf, codeOf, typeName_congr h]
    | product p parts =>
      obtain ⟨hclass, hparts⟩ := List.forall_mem_cons.mp h
      have hname : s.typeName (.product p) = s'.typeName (.product p) := hclass
      rw [codeOf, codeOf, hname, map_enumeratorName_congr hparts]
    | once g =>
      obtain ⟨hclass, hpart⟩ := List.forall_mem_append.mp h
      have hname : s.generatorName g = s'.generatorName g :=
        hpart _ (List.mem_singleton_self _)
      rw [codeOf, codeOf, typeName_congr hclass, hname]

end

/-! ## Every declaration has a name -/

/-- A declaration that has begun gets some name. -/
def Begun.Nameable (b : Begun) : Prop := ∀ s : Program, (s.nameAfter b.node b.name).1 ≠ ""

theorem reserveClass_ne_empty {p : Product} (hp : (Node.productClass p).Named) (s : Program) :
    (s.reserveClass p).1 ≠ "" := by
  intro hempty
  have hname := isIdentifier_reserveClass hp s
  rw [hempty] at hname
  cases hname

/-- A visit makes sure that there will be a name. -/
theorem nameable_visit {n : Node} (hn : n.Named) (s : Program) :
    Begun.Nameable ⟨n, (s.visit n).1⟩ := by
  intro s'
  cases n with
  | productClass p => exact reserveClass_ne_empty hn _
  | generator => exact fun h => nomatch (String.append_eq_empty_iff.mp h).1
  | enumerator => exact fun h => nomatch (String.append_eq_empty_iff.mp h).1
  | function f =>
    intro hempty
    have hf : isIdentifier f.name = true := hn
    have hname : f.name = "" := hempty
    rw [hname] at hf
    cases hf

/-! ## What holds while nodes are declared -/

/-- **A sound program**, while some declarations have begun. -/
structure Sound (s : Program) (begun : List Begun) : Prop where
  /-- The keys visited are those declared and those begun. -/
  settled : Settled s begun
  /-- What is written are the declarations, and no block is open. -/
  written : Written s
  /-- No key is declared or begun twice. -/
  once : (s.declarations.map (·.key) ++ begun.map (·.node.key)).Pairwise
    fun j k => j.same k = false
  /-- Every declaration has a name. -/
  named : ∀ d ∈ s.declarations, d.handle ≠ ""
  /-- What has begun will have one. -/
  nameable : ∀ b ∈ begun, b.Nameable
  /-- Every declaration is a closed unit. -/
  closed : s.Closed
  /-- Every declaration is written after those it mentions. -/
  writtenAfter : ∀ before d after, s.declarations = before ++ d :: after → d.WrittenAfter before

theorem sound_start (workingDir sourceDir : String) : Sound (start workingDir sourceDir) [] where
  settled := settled_start workingDir sourceDir
  written := rfl
  once := .nil
  named := nofun
  nameable := nofun
  closed := nofun
  writtenAfter := fun before _ _ h => by cases before <;> cases h

theorem Sound.withArgs {s : Program} (h : Sound s []) (args : RunArgs) :
    Sound { s with args } [] :=
  ⟨h.settled, h.written, h.once, h.named, h.nameable, h.closed, h.writtenAfter⟩

/-- What is written of a node comes after all it mentions. -/
theorem writtenAfter_declaration {s : Program} {n : Node} {reserved : Option String}
    (hmentions : ∀ m ∈ n.mentions, s.declares m.key = true) :
    (s.declaration n reserved).WrittenAfter s.declarations := by
  refine ⟨n, s.args, rfl, fun m hm => declares_iff.mp (hmentions m hm), fun s' hargs hnames => ?_⟩
  -- a name is found in a declaration, and the other program agrees on it
  have hhandles : ∀ m ∈ n.mentions, s.handle m.key = s'.handle m.key := by
    intro m hm
    obtain ⟨e, he⟩ := Option.isSome_iff_exists.mp (hmentions m hm)
    rw [hnames m hm e (mem_of_find? he).1 (mem_of_find? he).2, handle, he]
    rfl
  have hcode := codeOf_congr hargs.symm hhandles (s.declaration n reserved).handle
  rw [← hcode]
  cases n <;> rfl

/-- A visit leaves a program sound. -/
theorem Sound.visit {s : Program} {begun : List Begun} (h : Sound s begun) {n : Node}
    (hn : n.Named) (hnew : s.visits n.key = false) :
    Sound (s.visit n).2 (⟨n, (s.visit n).1⟩ :: begun) where
  settled := (Step.visit (P := Node.Named) hn hnew).settled h.settled
  written := Step.written (x := (s, begun)) (.visit (P := Node.Named) hn hnew) h.written
  once := by
    rw [declarations_visit, List.map_cons,
      List.pairwise_middle fun hjk => (Node.Key.same_comm _ _).trans hjk]
    refine List.pairwise_cons.mpr ⟨fun k hk => ?_, h.once⟩
    -- a key that is there was visited
    rw [Bool.eq_false_iff]
    intro hsame
    rw [Bool.eq_false_iff] at hnew
    refine hnew ((h.settled n.key).mpr ?_)
    rcases List.mem_append.mp hk with hk | hk
    · obtain ⟨d, hd, rfl⟩ := List.mem_map.mp hk
      exact .inl (declares_iff.mpr ⟨d, hd, Node.Key.same_symm hsame⟩)
    · obtain ⟨b, hb, rfl⟩ := List.mem_map.mp hk
      exact .inr ⟨b, hb, Node.Key.same_symm hsame⟩
  named := by
    rw [declarations_visit]
    exact h.named
  nameable := List.forall_mem_cons.mpr ⟨nameable_visit hn s, h.nameable⟩
  closed := h.closed.visit n
  writtenAfter := by
    rw [declarations_visit]
    exact h.writtenAfter

/-- Writing what was visited last leaves a program sound. -/
theorem Sound.write {s : Program} {begun : List Begun} {b : Begun} (h : Sound s (b :: begun))
    (hmentions : ∀ m ∈ b.node.mentions, s.declares m.key = true) :
    Sound (s.write b.node b.name) begun where
  settled := (Step.write (P := Node.Named) hmentions).settled h.settled
  written := Step.written (x := (s, b :: begun)) (.write (P := Node.Named) hmentions) h.written
  once := by
    have honce := h.once
    rw [List.map_cons] at honce
    rw [declarations_write, List.map_append, List.map_singleton, List.append_assoc]
    exact honce
  named := by
    rw [declarations_write]
    exact List.forall_mem_append.mpr
      ⟨h.named, List.forall_mem_singleton.mpr (h.nameable b List.mem_cons_self s)⟩
  nameable := (List.forall_mem_cons.mp h.nameable).2
  closed := h.closed.write b.node b.name
  writtenAfter := by
    intro before d after heq
    rw [declarations_write] at heq
    rcases split_of_snoc heq with ⟨rfl, rfl⟩ | ⟨rest, hdeclarations⟩
    · exact writtenAfter_declaration hmentions
    · exact h.writtenAfter before d rest hdeclarations

/-- **Steps leave a program sound.** So the recursion in which nodes are
declared plays no part: it is enough to look at what one visit and what
writing one block do. -/
theorem Steps.sound {x y : Program × List Begun} (h : Steps Node.Named x y)
    (hx : Sound x.1 x.2) : Sound y.1 y.2 := by
  induction h with
  | refl => exact hx
  | tail _ hstep ih =>
    cases hstep with
    | visit hn hnew => exact ih.visit hn hnew
    | write hmentions => exact ih.write hmentions

/-! ## A sound program is consistent -/

section

variable {s : Program}

/-- A key has one declaration. -/
theorem Sound.find?_eq (h : Sound s []) {d : Declaration} (hd : d ∈ s.declarations)
    {k : Node.Key} (hk : d.key.same k = true) : s.find? k = some d := by
  obtain ⟨e, he⟩ := Option.isSome_iff_exists.mp (declares_iff.mpr ⟨d, hd, hk⟩)
  obtain ⟨hmem, hek⟩ := mem_of_find? he
  rw [he]
  by_contra hne
  have honce := h.once
  rw [List.map_nil, List.append_nil, List.pairwise_map] at honce
  have : Std.Symm fun d e : Declaration => d.key.same e.key = false :=
    ⟨fun _ _ hde => (Node.Key.same_comm _ _).trans hde⟩
  have hfalse := honce.forall hmem hd fun heq => hne (congrArg some heq)
  rw [Node.Key.same_trans hek (Node.Key.same_symm hk)] at hfalse
  cases hfalse

theorem Sound.handle_eq (h : Sound s []) {d : Declaration} (hd : d ∈ s.declarations)
    {k : Node.Key} (hk : d.key.same k = true) : s.handle k = d.handle := by
  rw [handle, h.find?_eq hd hk]
  rfl

/-- **A sound program is consistent** when nothing has begun: the keys
that are visited are then those that are declared. -/
theorem Sound.consistent (h : Sound s []) : s.Consistent where
  sheet := h.written
  visits_iff := by
    intro k
    rw [h.settled k, declares_iff]
    constructor
    · rintro (⟨d, hd, hk⟩ | ⟨b, hb, -⟩)
      · exact ⟨d, hd, hk, h.handle_eq hd hk, h.named d hd⟩
      · cases hb
    · rintro ⟨d, hd, hk, -, -⟩
      exact .inl ⟨d, hd, hk⟩
  once := by
    have honce := h.once
    rwa [List.map_nil, List.append_nil, List.pairwise_map] at honce
  closed := h.closed
  written := by
    intro before d after heq
    obtain ⟨n, args, hkey, hmentions, hcode⟩ := h.writtenAfter before d after heq
    have hbefore : ∀ e ∈ before, e ∈ s.declarations := fun e he =>
      heq ▸ List.mem_append_left _ he
    refine ⟨n, args, hkey, fun m hm => ?_, fun s' hargs hnames => hcode s' hargs ?_⟩
    · obtain ⟨e, he, hsame⟩ := hmentions m hm
      exact ⟨e, he, hsame, h.handle_eq (hbefore e he) hsame, h.named e (hbefore e he)⟩
    · intro m hm e he hsame
      rw [hnames m hm, h.handle_eq (hbefore e he) hsame]

theorem Sound.answers (h : Sound s []) {k : Node.Key} (hk : s.declares k = true) :
    Answers (s.handle k, s) k := by
  obtain ⟨d, hd, hsame⟩ := declares_iff.mp hk
  exact ⟨d, hd, hsame, h.handle_eq hd hsame, h.named d hd⟩

theorem Sound.extends {s' : Program} (hs : Sound s []) (hs' : Sound s' [])
    (h : Steps Node.Named (s, []) (s', [])) : Extends s s' := by
  obtain ⟨more, hmore⟩ := h.isPrefix
  refine ⟨more, hmore.symm, ?_⟩
  rw [show s'.sheet = _ from hs'.written, show s.sheet = _ from hs.written, declarationCode,
    declarationCode, ← hmore, List.flatMap_append]
  exact Code.render_append _ _

end

/-! ## Reached programs -/

section

variable {s s' : Program}

theorem named_of_mem_classNode {t : Ty} (h : ∀ c ∈ t.calls, c.Named) :
    ∀ m ∈ t.classNode, ∀ c ∈ m.calls, c.Named := fun m hm c hc =>
  h c (t.calls_eq ▸ List.mem_flatMap.mpr ⟨m, hm, hc⟩)

/-- **An operation takes steps**, under some arguments. Completing a
program for a target is the only one that changes the arguments, and it
does so before it declares anything. -/
theorem Next.steps (h : Next s s') (hs : Settled s []) (hwritten : Written s) :
    ∃ args, Steps Node.Named ({ s with args }, []) (s', []) := by
  cases h with
  | emit h => exact ⟨s.args, (steps_emit hs h).1⟩
  | declare h =>
    exact ⟨s.args, (steps_emitAll hs fun _ hc d hd =>
      h d (Node.mem_calls_of_mem_calls hc hd)).1⟩
  | declareType h =>
    exact ⟨s.args, (steps_emitAll hs fun _ hc d hd =>
      h d (Ty.mem_calls_of_mem_calls hc hd)).1⟩
  | askType h => exact ⟨s.args, (steps_requireAll hs (named_of_mem_classNode h)).1⟩
  | @askGenerator g h => exact ⟨s.args, (steps_require (n := .generator g) hs h).1⟩
  | @askEnumerator e h => exact ⟨s.args, (steps_require (n := .enumerator e) hs h).1⟩
  | @askFunctionHead f h =>
    have hcalls : ∀ m ∈ (Node.function f).mentions, ∀ c ∈ m.calls, c ∈ f.calls :=
      fun m hm c hc => (Node.mem_calls (n := .function f)).mpr
        (.inl (Node.mem_below_of_mem_calls (Node.mem_below_of_mem_mentions hm) hc))
    exact ⟨s.args, (steps_requireAll hs fun m hm c hc => h c (hcalls m hm c hc)).1⟩
  | @collect t args source _ h hcollect =>
    obtain ⟨_, hargs, -⟩ := bind_eq_ok.mp hcollect
    rw [collect_eq hs hwritten hargs] at hcollect
    cases hcollect
    rw [t.calls_eq] at h ⊢
    have hs' : Settled { s with args } [] := hs
    exact ⟨args, (steps_emitAll hs' fun _ hc d hd =>
      h d (Node.mem_calls_of_mem_calls hc hd)).1⟩

/-- **An operation leaves a program sound** and only adds to it. -/
theorem Next.sound (h : Next s s') (hs : Sound s []) : Sound s' [] ∧ Extends s s' := by
  obtain ⟨args, hsteps⟩ := h.steps hs.settled hs.written
  have hs' := hsteps.sound (hs.withArgs args)
  exact ⟨hs', (hs.withArgs args).extends hs' hsteps⟩

/-- **Operations leave a program sound** and only add to it. -/
theorem Later.sound (h : Later s s') (hs : Sound s []) : Sound s' [] ∧ Extends s s' := by
  induction h with
  | refl =>
    refine ⟨hs, [], (List.append_nil _).symm, ?_⟩
    exact (String.append_empty).symm
  | tail _ hnext ih =>
    obtain ⟨hsound, more, hmore, htext⟩ := ih
    obtain ⟨hsound', more', hmore', htext'⟩ := hnext.sound hsound
    refine ⟨hsound', more ++ more', ?_, ?_⟩
    · rw [hmore', hmore, List.append_assoc]
    · rw [htext', htext, List.flatMap_append, Code.render_append, String.append_assoc]

/-- **A reached program is consistent**, whatever is done with it only
adds to what is declared and written, and names that are asked for stand
for declarations. An operation may mark a key long before its block is
written, and it declares on the way whatever the block mentions; but it
ends with every block written that it began, so that nobody is given the
empty name of a key without one. -/
theorem consistent_of_reached (h : Reached s) :
    s.Consistent ∧ (∀ s', Later s s' → Extends s s') ∧
      (∀ t : Ty, (∀ c ∈ t.calls, c.Named) →
        (t.basicProduct? = none ∧ (s.askType t).1 = "int") ∨
        ∃ p, t.basicProduct? = some p ∧ Answers (s.askType t) (.layout p.signature)) ∧
      (∀ g : Generator, (∀ c ∈ g.calls, c.Named) → Answers (s.askGenerator g) (.generator g)) ∧
      ∀ e : Enumerator, (∀ c ∈ e.calls, c.Named) →
        Answers (s.askEnumerator e) (.enumerator e) := by
  obtain ⟨workingDir, sourceDir, hlater⟩ := h
  have hs := (Later.sound hlater (sound_start workingDir sourceDir)).1
  refine ⟨hs.consistent, fun s' hs' => (Later.sound hs' hs).2, fun t ht => ?_, fun g hg => ?_,
    fun e he => ?_⟩
  · cases hp : t.basicProduct? with
    | none =>
      refine .inl ⟨rfl, ?_⟩
      rw [askType, typeName, hp]
    | some p =>
      have hp' : Node.productClass p ∈ t.classNode := by
        rw [Ty.classNode, hp]
        exact List.mem_singleton_self _
      have hdeclares := (steps_requireAll hs.settled (named_of_mem_classNode ht)).2 _ hp'
      have hanswers := ((Next.askType ht).sound hs).1.answers hdeclares
      refine .inr ⟨p, rfl, ?_⟩
      rw [askType, typeName, hp]
      exact hanswers
  · have hdeclares := (steps_require (n := .generator g) hs.settled hg).2
    exact ((Next.askGenerator hg).sound hs).1.answers hdeclares
  · have hdeclares := (steps_require (n := .enumerator e) hs.settled he).2
    exact ((Next.askEnumerator he).sound hs).1.answers hdeclares

end

/-- The generator of a point, declared with all it needs, and asked for
again. -/
theorem consistent_of_reached_point :
    let point : Product := ⟨some "Point", [⟨"x", .int, .uniform 0 1, .range ⟨0, 1⟩⟩]⟩
    let g : Generator := .product point [.uniform 0 1]
    let s := emitAll (Node.generator g).calls (start "/" "/")
    Reached s ∧ s.Consistent ∧ Answers (s.askGenerator g) (.generator g) := by
  intro point g s
  have hg : ∀ c ∈ g.calls, c.Named := by decide
  have hs : Reached s := ⟨"/", "/", .single (.declare hg)⟩
  obtain ⟨hconsistent, -, -, hanswers, -⟩ := consistent_of_reached hs
  exact ⟨hs, hconsistent, hanswers g hg⟩

end Program

end Specimen
