import Specimen.Proofs.Redeclaring
import Specimen.Proofs.StructNames

/-!
# Names stand for one thing

Whoever asks for the name of a type, a generator or an enumerator is
given one, and goes by it from then on. So a name must not change once
it is given, and must not be given to anything else of its kind. The
first is easy, because declarations are only added and the first one
found of a key is the one it has. The second is about how names are
made. Classes remember theirs, and a class that has begun holds a name
which it is not declared under yet. Everything else is numbered, by one
counter for generators and enumerators.

Across kinds names may agree (`Program.structNames_of_handle`), so what
is kept at every step is said of names with their kinds
(`Program.NamedOnce`). The main statement is
`Program.names_of_reached`.
-/

namespace Specimen

/-! ## Names with their kinds -/

/-- **The kinds of structs.** -/
inductive StructKind where
  /-- Classes of products. -/
  | productClass
  /-- Structs of generators. -/
  | generator
  /-- Structs of enumerators. -/
  | enumerator

/-- What the names of a kind begin with, if they are numbered. -/
def StructKind.base? : StructKind → Option String
  | productClass => none
  | generator => some "qit_gen"
  | enumerator => some "qit_iter"

/-- The kind of struct that a key is declared as, if it is one. -/
def Node.Key.structKind? : Node.Key → Option StructKind
  | layout _ => some .productClass
  | generator _ => some .generator
  | enumerator _ => some .enumerator
  | function _ => none

/-- The name of the struct that a declaration defines, with its kind. -/
def Declaration.kindName? (d : Declaration) : Option (StructKind × String) :=
  d.key.structKind?.map fun kind => (kind, d.handle)

namespace Program

/-- The name that a class has taken when it begins, with its kind. -/
def Begun.kindName? (b : Begun) : Option (StructKind × String) :=
  b.name.map fun name => (.productClass, name)

/-- **The names given** to structs, with their kinds: those of the
declarations, and those of classes that have begun. -/
def entries (s : Program) (begun : List Begun) : List (StructKind × String) :=
  s.declarations.filterMap Declaration.kindName? ++ begun.filterMap Begun.kindName?

/-- **No name is given twice** within a kind, while some declarations
have begun. -/
structure NamedOnce (s : Program) (begun : List Begun) : Prop where
  /-- Classes that have begun took a name, and nothing else did. -/
  begunNames : ∀ b ∈ begun, b.name.isSome = b.node.isClass
  /-- The names of classes are remembered. -/
  remembered : ∀ name, (.productClass, name) ∈ s.entries begun → name ∈ s.usedNames
  /-- All other names have a number that was used. -/
  numbered : ∀ kind name, (kind, name) ∈ s.entries begun →
    ∀ base ∈ kind.base?, ∃ i < s.nextId, name = base ++ toString i
  /-- No name is given twice within a kind. -/
  once : (s.entries begun).Nodup

section

variable {s : Program} {begun : List Begun}

theorem namedOnce_start (workingDir sourceDir : String) :
    NamedOnce (start workingDir sourceDir) [] :=
  ⟨nofun, nofun, nofun, .nil⟩

/-- **A visit gives a class a new name**, and nothing else any. -/
theorem NamedOnce.visit (h : NamedOnce s begun) (n : Node) :
    NamedOnce (s.visit n).2 (⟨n, (s.visit n).1⟩ :: begun) := by
  cases n with
  | productClass p =>
    obtain ⟨hnew, hused, hnext, -⟩ :=
      reserveClass_spec { s with visited := s.visited ++ [.layout p.signature] } p
    let name := (s.visit (.productClass p)).1
    have hentries : (s.visit (.productClass p)).2.entries (⟨.productClass p, name⟩ :: begun)
        = s.declarations.filterMap Declaration.kindName?
          ++ (.productClass, name.getD "") :: begun.filterMap Begun.kindName? := by
      rw [entries, declarations_visit]
      rfl
    have hmem : ∀ {e}, e ∈ s.declarations.filterMap Declaration.kindName?
          ++ (StructKind.productClass, name.getD "") :: begun.filterMap Begun.kindName? →
        e = (.productClass, name.getD "") ∨ e ∈ s.entries begun := fun he =>
      List.mem_cons.mp (List.perm_middle.mem_iff.mp he)
    refine ⟨List.forall_mem_cons.mpr ⟨rfl, h.begunNames⟩, fun other hother => ?_,
      fun kind other hother base hbase => ?_, ?_⟩
    · rw [hentries] at hother
      refine hused ▸ ?_
      rcases hmem hother with heq | hother
      · obtain ⟨-, rfl⟩ := Prod.mk.inj heq
        exact List.mem_append_right _ (List.mem_singleton_self _)
      · exact List.mem_append_left _ (h.remembered other hother)
    · rw [hentries] at hother
      rcases hmem hother with heq | hother
      · obtain ⟨rfl, -⟩ := Prod.mk.inj heq
        cases hbase
      · obtain ⟨i, hi, heq⟩ := h.numbered kind other hother base hbase
        exact ⟨i, Nat.lt_of_lt_of_le hi hnext, heq⟩
    · rw [hentries, List.nodup_middle]
      exact List.nodup_cons.mpr ⟨fun hold => hnew (h.remembered _ hold), h.once⟩
  | generator | enumerator | function =>
    exact ⟨List.forall_mem_cons.mpr ⟨rfl, h.begunNames⟩, h.remembered, h.numbered, h.once⟩

theorem entries_write (n : Node) (reserved : Option String) :
    (s.write n reserved).entries begun = s.declarations.filterMap Declaration.kindName?
      ++ ((s.declaration n reserved).kindName?.toList ++ begun.filterMap Begun.kindName?) := by
  rw [entries, declarations_write, List.filterMap_append, List.append_assoc, List.filterMap_cons]
  cases (s.declaration n reserved).kindName? <;> rfl

/-- **A number that was not used makes a new name** within a kind. Names
of one kind have one base, so that the number tells them apart. -/
theorem NamedOnce.number (h : NamedOnce s begun) {s' : Program} {kind : StructKind}
    {base : String} (hbase : kind.base? = some base) (hused : s'.usedNames = s.usedNames)
    (hnext : s'.nextId = s.nextId + 1)
    (hentries : s'.entries begun = s.declarations.filterMap Declaration.kindName?
      ++ (kind, base ++ toString s.nextId) :: begun.filterMap Begun.kindName?) :
    NamedOnce s' begun := by
  have hmem : ∀ {e}, e ∈ s'.entries begun →
      e = (kind, base ++ toString s.nextId) ∨ e ∈ s.entries begun := fun he => by
    rw [hentries] at he
    exact List.mem_cons.mp (List.perm_middle.mem_iff.mp he)
  refine ⟨h.begunNames, fun other hother => ?_, fun kind' other hother base' hbase' => ?_, ?_⟩
  · rw [hused]
    rcases hmem hother with heq | hother
    · obtain ⟨rfl, -⟩ := Prod.mk.inj heq
      cases hbase
    · exact h.remembered other hother
  · rw [hnext]
    rcases hmem hother with heq | hother
    · obtain ⟨rfl, rfl⟩ := Prod.mk.inj heq
      cases hbase.symm.trans hbase'
      exact ⟨s.nextId, Nat.lt_succ_self _, rfl⟩
    · obtain ⟨i, hi, heq⟩ := h.numbered kind' other hother base' hbase'
      exact ⟨i, Nat.lt_succ_of_lt hi, heq⟩
  · rw [hentries, List.nodup_middle]
    refine List.nodup_cons.mpr ⟨fun hold => ?_, h.once⟩
    obtain ⟨i, hi, heq⟩ := h.numbered kind _ hold base hbase
    exact absurd (append_toString_injective base heq) (Nat.ne_of_gt hi)

/-- Writing what was visited last gives no name twice. -/
theorem NamedOnce.write {b : Begun} (h : NamedOnce s (b :: begun)) :
    NamedOnce (s.write b.node b.name) begun := by
  obtain ⟨hb, hbegun⟩ := List.forall_mem_cons.mp h.begunNames
  obtain ⟨n, name⟩ := b
  have hrest : name = none → NamedOnce s begun := by
    rintro rfl
    exact ⟨hbegun, h.remembered, h.numbered, h.once⟩
  cases n with
  | productClass p =>
    -- the name was given when the class was visited
    obtain ⟨name, rfl⟩ := Option.isSome_iff_exists.mp hb
    have hentries : (s.write (.productClass p) (some name)).entries begun
        = s.entries (⟨.productClass p, some name⟩ :: begun) := entries_write _ _
    exact ⟨hbegun, hentries ▸ h.remembered, hentries ▸ h.numbered, hentries ▸ h.once⟩
  | generator g =>
    have hname : name = none := Option.isNone_iff_eq_none.mp (Option.isSome_eq_false_iff.mp hb)
    have hbase : StructKind.base? .generator = some "qit_gen" := rfl
    exact (hrest hname).number hbase rfl rfl (entries_write _ _)
  | enumerator e =>
    have hname : name = none := Option.isNone_iff_eq_none.mp (Option.isSome_eq_false_iff.mp hb)
    have hbase : StructKind.base? .enumerator = some "qit_iter" := rfl
    exact (hrest hname).number hbase rfl rfl (entries_write _ _)
  | function f =>
    have hname : name = none := Option.isNone_iff_eq_none.mp (Option.isSome_eq_false_iff.mp hb)
    obtain ⟨-, hremembered, hnumbered, honce⟩ := hrest hname
    have hentries : (s.write (.function f) name).entries begun = s.entries begun :=
      entries_write _ _
    exact ⟨hbegun, hentries ▸ hremembered, hentries ▸ hnumbered, hentries ▸ honce⟩

/-- **Steps give no name twice** within a kind. -/
theorem Steps.namedOnce {P : Node → Prop} {x y : Program × List Begun} (h : Steps P x y)
    (hx : NamedOnce x.1 x.2) : NamedOnce y.1 y.2 := by
  induction h with
  | refl => exact hx
  | tail _ hstep ih =>
    cases hstep with
    | visit _ _ => exact ih.visit _
    | write _ => exact ih.write

/-- Operations give no name twice within a kind. -/
theorem Later.namedOnce {s' : Program} (h : Later s s') (hs : Settled s []) (hwritten : Written s)
    (hnamed : NamedOnce s []) : NamedOnce s' [] := by
  induction h with
  | refl => exact hnamed
  | tail hlater hnext ih =>
    obtain ⟨hs', hwritten', -⟩ := Later.settled hlater hs hwritten
    obtain ⟨args, hsteps⟩ := hnext.steps hs' hwritten'
    exact hsteps.namedOnce ⟨ih.begunNames, ih.remembered, ih.numbered, ih.once⟩

theorem Reached.namedOnce (h : Reached s) : NamedOnce s [] := by
  obtain ⟨workingDir, sourceDir, hlater⟩ := h
  exact hlater.namedOnce (settled_start workingDir sourceDir) rfl
    (namedOnce_start workingDir sourceDir)

end

/-! ## A name tells its key -/

theorem structKind?_congr {j k : Node.Key} (h : j.same k = true) :
    j.structKind? = k.structKind? := by
  cases j <;> cases k <;> first | rfl | cases h

section

variable {s : Program}

/-- A declared key has an entry under its name. -/
theorem exists_entry {k : Node.Key} {kind : StructKind} (hkind : k.structKind? = some kind)
    (hk : s.declares k = true) :
    ∃ d ∈ s.declarations, d.key.same k = true ∧ d.kindName? = some (kind, s.handle k) := by
  obtain ⟨d, hd⟩ := Option.isSome_iff_exists.mp hk
  obtain ⟨hmem, hsame⟩ := mem_of_find? hd
  refine ⟨d, hmem, hsame, ?_⟩
  rw [Declaration.kindName?, structKind?_congr hsame, hkind, handle, hd]
  rfl

/-- **Declared keys of one kind have one name only if they are the same.**
Between kinds this need not be so: a product may be called like a
generator. -/
theorem NamedOnce.handle_eq_iff (h : NamedOnce s []) {j k : Node.Key} {kind : StructKind}
    (hj : j.structKind? = some kind) (hk : k.structKind? = some kind)
    (hjs : s.declares j = true) (hks : s.declares k = true) :
    s.handle j = s.handle k ↔ j.same k = true := by
  refine ⟨fun heq => ?_, fun hsame => handle_congr (Node.Key.same_iff.mp hsame)⟩
  obtain ⟨d, hd, hdj, hdentry⟩ := exists_entry hj hjs
  obtain ⟨e, he, hek, heentry⟩ := exists_entry hk hks
  -- one entry is made by one declaration, which then has both keys
  have honce : s.declarations.Pairwise fun d e =>
      ∀ x ∈ d.kindName?, ∀ y ∈ e.kindName?, x ≠ y := by
    have honce := h.once
    rwa [entries, List.filterMap_nil, List.append_nil, List.Nodup, List.pairwise_filterMap] at honce
  have : Std.Symm fun d e : Declaration => ∀ x ∈ d.kindName?, ∀ y ∈ e.kindName?, x ≠ y :=
    ⟨fun _ _ hde y hy x hx hyx => hde x hx y hy hyx.symm⟩
  by_cases hde : d = e
  · subst hde
    exact Node.Key.same_trans (Node.Key.same_symm hdj) hek
  · exact absurd (by rw [heq]) (honce.forall hd he hde _ hdentry _ heentry)

end

/-! ## Asking for names -/

section

variable {s s' : Program} (hs : Settled s []) (hwritten : Written s)
include hs hwritten

/-- Requiring a node leaves nothing begun, gives no name twice, and
declares the node, for any later program. -/
theorem require_spec (hnamed : NamedOnce s []) {n : Node} (h : Later (s.require n) s') :
    Settled s' [] ∧ Written s' ∧ NamedOnce s' [] ∧ s'.declares n.key = true ∧
      s'.handle n.key = (s.require n).handle n.key := by
  obtain ⟨hsteps, hdeclares⟩ : Steps (fun _ => True) (s, []) (s.require n, []) ∧ _ :=
    steps_require hs fun _ _ => trivial
  have hs₁ := hsteps.settled (x := (s, [])) hs
  have hwritten₁ := hsteps.written (x := (s, [])) hwritten
  have hnamed₁ := hsteps.namedOnce (x := (s, [])) hnamed
  obtain ⟨hs', hwritten', hprefix⟩ := h.settled hs₁ hwritten₁
  exact ⟨hs', hwritten', h.namedOnce hs₁ hwritten₁ hnamed₁, h.declares hs₁ hwritten₁ hdeclares,
    handle_of_isPrefix hprefix hdeclares⟩

/-- **A name that is asked for stands for one key of its kind**, and is
given to it again at any later time. -/
theorem require_handle (hnamed : NamedOnce s []) {n m : Node} {kind : StructKind}
    (hn : n.key.structKind? = some kind) (hm : m.key.structKind? = some kind)
    (h : Later (s.require n) s') :
    ((s.require n).handle n.key = (s'.require m).handle m.key ↔ n.key.same m.key = true) ∧
      (s'.require n).handle n.key = (s.require n).handle n.key := by
  obtain ⟨hs', hwritten', hnamed', hdeclares, hhandle⟩ := require_spec hs hwritten hnamed h
  obtain ⟨-, -, hnamed'', hdeclares'', -⟩ := require_spec hs' hwritten' hnamed' (n := m) .refl
  obtain ⟨hsteps, -⟩ : Steps (fun _ => True) (s', []) (s'.require m, []) ∧ _ :=
    steps_require hs' fun _ _ => trivial
  rw [require_of_declares hdeclares, hhandle]
  refine ⟨?_, rfl⟩
  rw [← hhandle, ← handle_of_isPrefix hsteps.isPrefix hdeclares]
  exact hnamed''.handle_eq_iff hn hm (hsteps.declares hdeclares) hdeclares''

end

/-- Asking for the name of a type whose values are tuples requires the
class of the product that they are tuples of. -/
theorem askType_of_basicProduct? {t : Ty} {p : Product} (h : t.basicProduct? = some p)
    (s : Program) : s.askType t =
      ((s.require (.productClass p)).handle (.layout p.signature),
        s.require (.productClass p)) := by
  have hclass : s.requireAll t.classNode = s.require (.productClass p) := by
    rw [Ty.classNode, h]
    rfl
  rw [askType, hclass, typeName, h]

/-- The signature of a type is that of the product that its values are
tuples of. -/
theorem signature_of_basicProduct? {t : Ty} {p : Product} (h : t.basicProduct? = some p) :
    t.signature = p.signature := by
  rw [Ty.signature, t.layout_eq, h]
  rfl

/-- **Names stand for one thing**, in any program that is reached. The
name that is given for a type whose values are tuples is given at any
later time for types of the same signature and no others, and so are
those of generators and of enumerators for what is the same. Whoever
asks again is given the name again. -/
theorem names_of_reached {s : Program} (h : Reached s) :
    (∀ (t u : Ty) (p q : Product) (s' : Program), t.basicProduct? = some p →
      u.basicProduct? = some q → Later (s.askType t).2 s' →
      ((s.askType t).1 = (s'.askType u).1 ↔ t.signature = u.signature)) ∧
    (∀ (f g : Generator) (s' : Program), Later (s.askGenerator f).2 s' →
      ((s.askGenerator f).1 = (s'.askGenerator g).1 ↔ f.same g = true)) ∧
    (∀ (d e : Enumerator) (s' : Program), Later (s.askEnumerator d).2 s' →
      ((s.askEnumerator d).1 = (s'.askEnumerator e).1 ↔ d.same e = true)) ∧
    (∀ (t : Ty) (s' : Program), Later (s.askType t).2 s' →
      (s'.askType t).1 = (s.askType t).1) ∧
    (∀ (g : Generator) (s' : Program), Later (s.askGenerator g).2 s' →
      (s'.askGenerator g).1 = (s.askGenerator g).1) ∧
    ∀ (e : Enumerator) (s' : Program), Later (s.askEnumerator e).2 s' →
      (s'.askEnumerator e).1 = (s.askEnumerator e).1 := by
  obtain ⟨hs, hwritten⟩ := h.settled
  have hnamed := h.namedOnce
  refine ⟨fun t u p q s' hp hq hlater => ?_, fun f g s' hlater => ?_, fun d e s' hlater => ?_,
    fun t s' hlater => ?_, fun g s' hlater => ?_, fun e s' hlater => ?_⟩
  · rw [askType_of_basicProduct? hp] at hlater ⊢
    rw [askType_of_basicProduct? hq, signature_of_basicProduct? hp, signature_of_basicProduct? hq]
    exact (require_handle hs hwritten hnamed (n := .productClass p) (m := .productClass q) rfl rfl
      hlater).1.trans beq_iff_eq
  · exact (require_handle hs hwritten hnamed (n := .generator f) (m := .generator g) rfl rfl
      hlater).1
  · exact (require_handle hs hwritten hnamed (n := .enumerator d) (m := .enumerator e) rfl rfl
      hlater).1
  · cases hp : t.basicProduct? with
    | none => rw [askType, askType, typeName, typeName, hp]
    | some p =>
      rw [askType_of_basicProduct? hp] at hlater ⊢
      rw [askType_of_basicProduct? hp]
      exact (require_handle hs hwritten hnamed (n := .productClass p) (m := .productClass p)
        rfl rfl hlater).2
  · exact (require_handle hs hwritten hnamed (n := .generator g) (m := .generator g) rfl rfl
      hlater).2
  · exact (require_handle hs hwritten hnamed (n := .enumerator e) (m := .enumerator e) rfl rfl
      hlater).2

/-- Three products of one name. The first two differ in where their values
come from and share a class, and the third has another field and a class
of its own. -/
theorem names_of_reached_point :
    let point (field : String) (stop : Int32) : Ty :=
      .product ⟨some "Point", [⟨field, .int, .uniform 0 (stop - 1), .range ⟨0, stop⟩⟩]⟩
    let s := start "/" "/src"
    let s₁ := (s.askType (point "x" 3)).2
    Reached s ∧ (s.askType (point "x" 3)).1 = (s₁.askType (point "x" 4)).1 ∧
      (s.askType (point "x" 3)).1 ≠ (s₁.askType (point "y" 3)).1 := by
  intro point s s₁
  have hreached : Reached s := ⟨"/", "/src", .refl⟩
  obtain ⟨htypes, -⟩ := names_of_reached hreached
  have hne : (point "x" 3).signature ≠ (point "y" 3).signature := by decide
  exact ⟨hreached, (htypes _ _ _ _ s₁ rfl rfl .refl).mpr rfl,
    fun heq => hne ((htypes _ _ _ _ s₁ rfl rfl .refl).mp heq)⟩

end Program

end Specimen
