import Specimen.Proofs.Inventory
import Specimen.Proofs.Literals
import Specimen.Proofs.Variables

/-!
# What run arguments reach

Two sets of arguments that fit a target give two sources. They are the
same text exactly when every variable of the target has the same value
in both (`Program.sourceOf_eq_iff`).

If the values are the same, nothing else tells the two apart, since
arguments change no name. The other direction needs more than literals
that differ for values that do: a source has many of them, with names,
types and other code between them, and what one variable has more could
be what another has less. So the two texts are read side by side from
the left. Up to the first literal they are equal, a literal is told from
the other with whatever stands behind it, and what is left is equal
again (`Program.codeOf_append_inj`).
-/

namespace Specimen

theorem Target.freeVariables_eq_filterMap (t : Target) :
    t.freeVariables = (newNodes t.calls).filterMap Node.variable? := by
  rw [t.freeVariables_eq, ← t.filterMap_variable?_calls]
  refine foldl_addNew_filterMap (fun n x hn c => ?_) t.calls
  rw [Node.variable?_eq_some.mp hn]
  exact x.any_same_variable? c

/-- An integer and a tuple are not of one type. -/
theorem Ty.accepts_tuple_eq_false {t : Ty} {n : Int32} (h : t.accepts (.int n) = true)
    (items : List Value) : t.accepts (.tuple items) = false := by
  rw [Ty.accepts] at h ⊢
  cases hlayout : t.layout with
  | int => rw [Layout.accepts]
  | product name fields =>
    rw [hlayout, Layout.accepts] at h
    cases h

namespace Program

/-! ## The struct of a variable -/

/-- **A value is told from its expression** in front of what ends a
literal, if its type is known. It takes the type to see whether the name
of a class comes first, which could not be told from a literal else. -/
theorem typedLiteral_append_inj {element : String} {ty : Ty} {v w : Value}
    (hv : ty.accepts v = true) (hw : ty.accepts w = true) {cs ds : List Char}
    (hcs : Value.EndsLiteral cs) (hds : Value.EndsLiteral ds)
    (h : (typedLiteral element v).toList ++ cs = (typedLiteral element w).toList ++ ds) :
    v = w ∧ cs = ds := by
  cases v with
  | int m =>
    cases w with
    | int n =>
      rw [typedLiteral_int, typedLiteral_int] at h
      obtain ⟨hmn, hrest⟩ := Value.intLiteral_append_inj hcs hds h
      exact ⟨congrArg Value.int hmn, hrest⟩
    | tuple ys =>
      rw [Ty.accepts_tuple_eq_false hv] at hw
      cases hw
  | tuple xs =>
    cases w with
    | int n =>
      rw [Ty.accepts_tuple_eq_false hw] at hv
      cases hv
    | tuple ys =>
      rw [typedLiteral_tuple, typedLiteral_tuple, String.toList_append, String.toList_append,
        List.append_assoc, List.append_assoc] at h
      exact Value.literal_append_inj _ _ _ _ hcs hds (List.append_cancel_left h)

/-- In the text of a variable's struct its expression stands in front of a
semicolon. -/
theorem exists_render_argumentGenerator (name element : String) :
    ∃ head : String, ∀ expression,
      Code.render (Block.argumentGenerator name element expression)
        = head ++ (expression ++ ";\n  \x7d\n\x7d;\n\n") := by
  refine ⟨"struct " ++ name ++ " \x7b\n  void generate(" ++ element ++ " &out) \x7b\n    out = ",
    fun expression => ?_⟩
  simp only [Block.argumentGenerator, Code.struct, Block.generateMember, Code.gap, Code.render,
    Code.renderAllAt, Code.renderAt, Code.indented, String.append_assoc, String.append_empty]
  rfl

/-- **A value is told from the text of its struct**, whatever follows. The
texts are alike up to the value's expression, and the semicolon behind it
ends the literal. -/
theorem render_argumentGenerator_append_inj {name element : String} {ty : Ty} {v w : Value}
    (hv : ty.accepts v = true) (hw : ty.accepts w = true) {cs ds : List Char}
    (h : (Code.render (Block.argumentGenerator name element (typedLiteral element v))).toList ++ cs
      = (Code.render (Block.argumentGenerator name element (typedLiteral element w))).toList
        ++ ds) :
    v = w ∧ cs = ds := by
  obtain ⟨head, hrender⟩ := exists_render_argumentGenerator name element
  simp only [hrender, String.toList_append, List.append_assoc] at h
  have hends : ∀ cs, Value.EndsLiteral (";\n  \x7d\n\x7d;\n\n".toList ++ cs) := by
    rintro cs c ⟨⟩
    rfl
  obtain ⟨hvw, hrest⟩ := typedLiteral_append_inj hv hw (hends cs) (hends ds)
    (List.append_cancel_left h)
  exact ⟨hvw, List.append_cancel_left hrest⟩

/-! ## Two programs side by side -/

section

variable {s s' : Program} (h : Alike s s')
include h

/-- **A node's code tells the values it is given**, whatever follows. Only
the code of a variable looks at the arguments; that of any other node is
the same text in both. -/
theorem codeOf_append_inj {n : Node}
    (hbound : ∀ x, n.variable? = some x → x.Bound s.args ∧ x.Bound s'.args) (name : String)
    {cs ds : List Char} (heq : (Code.render (s.codeOf name n)).toList ++ cs
      = (Code.render (s'.codeOf name n)).toList ++ ds) :
    (∀ x, n.variable? = some x →
      NameTable.find? x.name s.args = NameTable.find? x.name s'.args) ∧ cs = ds := by
  cases hn : n.variable? with
  | none =>
    have hcode : s.codeOf name n = s'.codeOf name n :=
      codeOf_eq_of_alike h (fun x ty hx => by rw [hx] at hn; cases hn) name
    rw [hcode] at heq
    exact ⟨nofun, List.append_cancel_left heq⟩
  | some x =>
    obtain rfl := Node.variable?_eq_some.mp hn
    obtain ⟨⟨v, hv, haccepts⟩, ⟨w, hw, haccepts'⟩⟩ := hbound x hn
    have htype : s.typeName x.ty = s'.typeName x.ty := typeName_congr fun m _ => h.handle_eq m.key
    rw [Variable.node, codeOf, codeOf, argumentExpression_of_find? hv,
      argumentExpression_of_find? hw, htype] at heq
    obtain ⟨rfl, hrest⟩ := render_argumentGenerator_append_inj haccepts haccepts' heq
    refine ⟨?_, hrest⟩
    rintro _ ⟨⟩
    rw [hv, hw]

/-- **The code of nodes tells the values they are given**, whatever
follows. By induction on the nodes: the code of the first ends at the same
place in both texts, so the rest of the one text is the rest of the other.
-/
theorem flatMap_code_append_inj {nodes : List Node}
    (hbound : ∀ n ∈ nodes, ∀ x, n.variable? = some x → x.Bound s.args ∧ x.Bound s'.args)
    {cs ds : List Char}
    (heq : (Code.render (nodes.flatMap fun n => (s.declarationOf n).code)).toList ++ cs
      = (Code.render (nodes.flatMap fun n => (s'.declarationOf n).code)).toList ++ ds) :
    ∀ n ∈ nodes, ∀ x, n.variable? = some x →
      NameTable.find? x.name s.args = NameTable.find? x.name s'.args := by
  induction nodes with
  | nil => exact nofun
  | cons n nodes ih =>
    rw [List.forall_mem_cons] at hbound ⊢
    rw [List.flatMap_cons, List.flatMap_cons, Code.render_append, Code.render_append,
      String.toList_append, String.toList_append, List.append_assoc, List.append_assoc,
      declarationOf, declarationOf, h.handle_eq] at heq
    obtain ⟨hn, hrest⟩ := codeOf_append_inj h hbound.1 _ heq
    exact ⟨hn, ih hbound.2 hrest⟩

theorem Alike.includes_eq (hworkingDir : s.workingDir = s'.workingDir)
    (hsourceDir : s.sourceDir = s'.sourceDir) : s.includes = s'.includes := by
  have hkeys : s.declarations.map Declaration.key = s'.declarations.map Declaration.key := by
    have houtline := congrArg (List.map Prod.fst) h.outline
    rwa [Program.outline, Program.outline, List.map_map, List.map_map] at houtline
  rw [includes, includes, functions_eq_filterMap, functions_eq_filterMap, hkeys, hworkingDir,
    hsourceDir]

/-- **Sources of programs that give the same names** differ in their
declarations at most. -/
theorem Alike.exists_sourceCode_eq (hworkingDir : s.workingDir = s'.workingDir)
    (hsourceDir : s.sourceDir = s'.sourceDir) (t : Target) :
    ∃ rest, s.sourceCode t = preamble ++ s.declarationCode ++ rest ∧
      s'.sourceCode t = preamble ++ s'.declarationCode ++ rest := by
  have htype : s.typeName t.elementType = s'.typeName t.elementType :=
    typeName_congr fun m _ => h.handle_eq m.key
  refine ⟨_, List.append_assoc .., ?_⟩
  rw [sourceCode, List.append_assoc, h.includes_eq hworkingDir hsourceDir, htype, h.handle_eq]

/-- **Two sources are the same** when the values that their nodes are
given are. -/
theorem Alike.render_sourceCode_eq_iff (hworkingDir : s.workingDir = s'.workingDir)
    (hsourceDir : s.sourceDir = s'.sourceDir) {nodes : List Node}
    (hs : s.declarations = nodes.map s.declarationOf)
    (hs' : s'.declarations = nodes.map s'.declarationOf)
    (hbound : ∀ n ∈ nodes, ∀ x, n.variable? = some x → x.Bound s.args ∧ x.Bound s'.args)
    (t : Target) :
    Code.render (s.sourceCode t) = Code.render (s'.sourceCode t) ↔
      ∀ n ∈ nodes, ∀ x, n.variable? = some x →
        NameTable.find? x.name s.args = NameTable.find? x.name s'.args := by
  obtain ⟨rest, hrest, hrest'⟩ := h.exists_sourceCode_eq hworkingDir hsourceDir t
  rw [hrest, hrest', declarationCode, declarationCode, hs, hs', List.flatMap_map,
    List.flatMap_map]
  constructor
  · intro heq
    have hchars := congrArg String.toList heq
    simp only [Code.render_append, String.toList_append, List.append_assoc] at hchars
    exact flatMap_code_append_inj h hbound (List.append_cancel_left hchars)
  · intro hvalues
    have hcode : ∀ n ∈ nodes, (s.declarationOf n).code = (s'.declarationOf n).code := by
      intro n hn
      rw [declarationOf, declarationOf, h.handle_eq]
      exact codeOf_eq_of_alike h
        (fun x ty hx => hvalues n hn ⟨x, ty⟩ (Node.variable?_eq_some.mpr hx)) _
    rw [List.flatMap_congr hcode]

end

/-- **A source tells the values of its target's variables**, and nothing
else of the run arguments. If two sources are the same, so are the values
of each variable that occurs, since a value is told from the text of its
struct whatever follows; and if the values are the same, so is all that is
written, since the code of no other node looks at the arguments. -/
theorem sourceOf_eq_iff (workingDir sourceDir : String) (t : Target) (a b : RunArgs)
    (ha : t.checkArgs a = .ok ()) (hb : t.checkArgs b = .ok ()) :
    ∃ source source', sourceOf workingDir sourceDir t a = .ok source ∧
      sourceOf workingDir sourceDir t b = .ok source' ∧
      (source = source' ↔ ∀ x ∈ t.freeVariables,
        NameTable.find? x.name a = NameTable.find? x.name b) := by
  refine ⟨_, _, sourceOf_eq workingDir sourceDir ha, sourceOf_eq workingDir sourceDir hb, ?_⟩
  have hdeclarations := fun args =>
    have hsettled : Settled { start workingDir sourceDir with args } [] :=
      settled_start workingDir sourceDir
    declarations_foldl_place hsettled rfl t.inOrder_calls
  have hdirs := fun args => dirs_foldl_place { start workingDir sourceDir with args } t.calls
  have hargs := fun args => args_foldl_place { start workingDir sourceDir with args } t.calls
  have hstart : Alike { start workingDir sourceDir with args := a }
      { start workingDir sourceDir with args := b } := ⟨rfl, rfl, rfl, rfl⟩
  have hmem : ∀ x, x ∈ t.freeVariables ↔ ∃ n ∈ newNodes t.calls, n.variable? = some x :=
    fun x => by rw [t.freeVariables_eq_filterMap, List.mem_filterMap]
  have hbound : ∀ args, t.checkArgs args = .ok () → ∀ n ∈ newNodes t.calls, ∀ x,
      n.variable? = some x → x.Bound args := fun args hargs n hn x hx =>
    Variable.check_eq_ok.mp (forM_eq_ok.mp hargs x ((hmem x).mpr ⟨n, hn, hx⟩))
  rw [(hstart.foldl_place t.calls).render_sourceCode_eq_iff ((hdirs a).1.trans (hdirs b).1.symm)
    ((hdirs a).2.trans (hdirs b).2.symm) (hdeclarations a) (hdeclarations b), hargs, hargs]
  · constructor
    · intro hnodes x hx
      obtain ⟨n, hn, hnx⟩ := (hmem x).mp hx
      exact hnodes n hn x hnx
    · exact fun hvalues n hn x hnx => hvalues x ((hmem x).mpr ⟨n, hn, hnx⟩)
  · intro n hn x hnx
    rw [hargs, hargs]
    exact ⟨hbound a ha n hn x hnx, hbound b hb n hn x hnx⟩

/-- Two variables whose literals are the same digits one after the other:
the sources differ. An argument that no variable is for makes none. -/
theorem sourceOf_eq_iff_digits :
    let t : Target := .generator (.product (Product.tuple [.int, .int])
      [.runArgument "x" .int, .runArgument "y" .int])
    let a : RunArgs := [("x", .int 1), ("y", .int 23)]
    let b : RunArgs := [("x", .int 12), ("y", .int 3)]
    t.checkArgs a = .ok () ∧ t.checkArgs b = .ok () ∧ t.checkArgs (a ++ [("z", .int 4)]) = .ok () ∧
    sourceOf "/" "/src" t a ≠ sourceOf "/" "/src" t b ∧
    sourceOf "/" "/src" t a = sourceOf "/" "/src" t (a ++ [("z", .int 4)]) := by
  intro t a b
  have hvariables : t.freeVariables = [⟨"x", .int⟩, ⟨"y", .int⟩] := rfl
  have ha : t.checkArgs a = .ok () := rfl
  have hb : t.checkArgs b = .ok () := rfl
  have hc : t.checkArgs (a ++ [("z", .int 4)]) = .ok () := rfl
  obtain ⟨source, source', hsource, hsource', hiff⟩ := sourceOf_eq_iff "/" "/src" t a b ha hb
  obtain ⟨_, source'', hagain, hsource'', hiff'⟩ :=
    sourceOf_eq_iff "/" "/src" t a (a ++ [("z", .int 4)]) ha hc
  refine ⟨ha, hb, hc, fun heq => ?_, ?_⟩
  · rw [hsource, hsource'] at heq
    have hx := hiff.mp (Except.ok.inj heq) ⟨"x", .int⟩ (hvariables ▸ List.mem_cons_self)
    exact absurd hx (by decide)
  · rw [hagain, hsource'']
    refine congrArg Except.ok (hiff'.mpr fun x hx => ?_)
    rw [hvariables] at hx
    rcases List.mem_cons.mp hx with rfl | hx
    · rfl
    · cases List.mem_singleton.mp hx
      rfl

end Program

end Specimen
