import Specimen.Proofs.ClosedUnits
import Specimen.Proofs.DeclaringInOrder
import Specimen.Proofs.PathOrder

/-!
# The functions of a target

What functions a target calls is known before any program is written for
it: files of external functions are looked for first. The list is made
by going through generators and their arguments, and the declarations
are made by going through calls. Both meet the functions in the same
order and take each at its first meeting, so the program declares the
functions listed and no others (`Target.functions_eq`), and includes
their files.

A file is included by a line with its path between quotes. Paths may
have quotes in them, so what stands there is not always the path itself.
It is what a string literal needs to say for it, and reading the literal
gives the path back (`Program.unescaped?_escapePath`). The main statement
is about the text of the source (`Program.functions_of_collect`): the
lines, the paths in them, and what is before and behind.
-/

namespace Specimen

/-! ## The functions among nodes -/

/-- The function of a node, if it is one. -/
def Node.function? : Node → Option Function
  | function f => some f
  | _ => none

/-- The function of a key, if it is that of one. -/
def Node.Key.function? : Node.Key → Option Function
  | function f => some f
  | _ => none

theorem Ty.filterMap_function?_calls (t : Ty) : t.calls.filterMap Node.function? = [] := by
  refine List.filterMap_eq_nil_iff.mpr fun c hc => ?_
  obtain ⟨p, rfl⟩ := Ty.exists_of_mem_calls hc
  rfl

theorem Product.filterMap_function?_calls (p : Product) :
    p.calls.filterMap Node.function? = [] := by
  have h := (Ty.product p).filterMap_function?_calls
  rwa [Ty.calls] at h

/-- Of what a function needs, only itself is one. -/
theorem Function.filterMap_function?_calls (f : Function) :
    f.calls.filterMap Node.function? = [f] := by
  have hparams : (f.params.flatMap fun p => p.ty.calls).filterMap Node.function? = [] := by
    refine List.filterMap_eq_nil_iff.mpr fun c hc => ?_
    obtain ⟨p, -, hc⟩ := List.mem_flatMap.mp hc
    exact List.filterMap_eq_nil_iff.mp p.ty.filterMap_function?_calls c hc
  rw [Function.calls, List.filterMap_append, List.filterMap_append,
    f.returns.filterMap_function?_calls, hparams]
  rfl

mutual

/-- **The functions a generator calls** are those among the nodes it
needs. -/
theorem Generator.functions_eq (met : List Function) : (g : Generator) →
    g.functions met = (g.calls.filterMap Node.function?).foldl (addNew Function.same) met
  | .uniform _ _ => by
    rw [Generator.functions, Generator.calls]
    rfl
  | .values v => by
    rw [Generator.functions, Generator.calls, List.filterMap_append,
      v.ty.filterMap_function?_calls]
    rfl
  | .product p parts => by
    rw [Generator.functions, Generator.calls, List.filterMap_append, List.filterMap_append,
      p.filterMap_function?_calls, List.append_nil, generatorsFunctions_eq met parts]
    exact congrArg _ (List.append_nil _).symm
  | .call f args => by
    rw [Generator.functions, Generator.calls, List.filterMap_append, List.filterMap_append,
      f.filterMap_function?_calls, generatorsFunctions_eq met args, List.foldl_append,
      List.foldl_append]
    rfl
  | .runArgument _ ty => by
    rw [Generator.functions, Generator.calls, List.filterMap_append,
      ty.filterMap_function?_calls]
    rfl

/-- The functions generators call are those among the nodes they
need. -/
theorem generatorsFunctions_eq (met : List Function) : (gs : List Generator) →
    generatorsFunctions met gs
      = ((generatorsCalls gs).filterMap Node.function?).foldl (addNew Function.same) met
  | [] => by
    rw [generatorsFunctions, generatorsCalls]
    rfl
  | g :: rest => by
    rw [generatorsFunctions, generatorsCalls, List.filterMap_append, List.foldl_append,
      g.functions_eq met, generatorsFunctions_eq _ rest]

end

mutual

/-- **The functions an enumerator calls** are those among the nodes it
needs. -/
theorem Enumerator.functions_eq (met : List Function) : (e : Enumerator) →
    e.functions met = (e.calls.filterMap Node.function?).foldl (addNew Function.same) met
  | .range _ => by
    rw [Enumerator.functions, Enumerator.calls]
    rfl
  | .values v => by
    rw [Enumerator.functions, Enumerator.calls, List.filterMap_append,
      v.ty.filterMap_function?_calls]
    rfl
  | .product p parts => by
    rw [Enumerator.functions, Enumerator.calls, List.filterMap_append, List.filterMap_append,
      p.filterMap_function?_calls, List.append_nil, enumeratorsFunctions_eq met parts]
    exact congrArg _ (List.append_nil _).symm
  | .once g => by
    rw [Enumerator.functions, Enumerator.calls, List.filterMap_append, g.functions_eq met]
    exact congrArg _ (List.append_nil _).symm

/-- The functions enumerators call are those among the nodes they
need. -/
theorem enumeratorsFunctions_eq (met : List Function) : (es : List Enumerator) →
    enumeratorsFunctions met es
      = ((enumeratorsCalls es).filterMap Node.function?).foldl (addNew Function.same) met
  | [] => by
    rw [enumeratorsFunctions, enumeratorsCalls]
    rfl
  | e :: rest => by
    rw [enumeratorsFunctions, enumeratorsCalls, List.filterMap_append, List.foldl_append,
      e.functions_eq met, enumeratorsFunctions_eq _ rest]

end

/-! ## Meeting functions and visiting nodes -/

/-- **Functions are met first when their nodes are new.** -/
theorem foldl_addNew_function? (calls : List Node) :
    (calls.filterMap Node.function?).foldl (addNew Function.same) []
      = (newNodes calls).filterMap Node.function? := by
  refine foldl_addNew_filterMap (fun n f hn c => ?_) calls
  cases n <;> cases hn
  cases c <;> rfl

/-- **The functions of a target** are those among its new nodes. -/
theorem Target.functions_eq (t : Target) :
    t.functions = (newNodes t.calls).filterMap Node.function? := by
  rw [← foldl_addNew_function?]
  cases t with
  | generator g => exact g.functions_eq []
  | enumerator e => exact e.functions_eq []

theorem Target.pairwise_functions (t : Target) :
    t.functions.Pairwise fun f g => f.same g = false := by
  rw [t.functions_eq, List.pairwise_filterMap]
  refine (pairwise_newNodes t.calls).imp fun {c d} hcd f hf g hg => ?_
  cases c <;> cases hf
  cases d <;> cases hg
  exact hcd

theorem Function.exists_sourcePath?_iff {f : Function} (workingDir sourceDir : String) :
    (∃ path, f.sourcePath? workingDir sourceDir = some path) ↔ f.isExternal = true := by
  unfold Function.sourcePath? Function.isExternal
  cases f.body with
  | external file => exact ⟨fun _ => rfl, fun _ => ⟨_, rfl⟩⟩
  | inline text => exact ⟨nofun, nofun⟩

namespace Program

/-! ## The functions of a program -/

/-- The functions declared are those among the keys. -/
theorem functions_eq_filterMap (s : Program) :
    s.functions = (s.declarations.map Declaration.key).filterMap Node.Key.function? := by
  rw [List.filterMap_map]
  refine List.filterMap_congr fun d _ => ?_
  show _ = d.key.function?
  cases d.key <;> rfl

/-- The functions declared are those among nodes of the same keys. -/
theorem functions_eq_of_map_key {s : Program} {nodes : List Node}
    (h : s.declarations.map Declaration.key = nodes.map Node.key) :
    s.functions = nodes.filterMap Node.function? := by
  have hnodes : nodes.filterMap Node.function?
      = (nodes.map Node.key).filterMap Node.Key.function? := by
    rw [List.filterMap_map]
    refine List.filterMap_congr fun n _ => ?_
    cases n <;> rfl
  rw [s.functions_eq_filterMap, hnodes, h]

/-- **The files included** are those of the external functions declared:
every one is included in one of its spellings, once, and in the order of
components. -/
theorem includes_spec (s : Program) :
    s.includes.Pairwise (fun p q => Path.Before p q ∧ Path.same p q = false) ∧
      (∀ path ∈ s.includes, ∃ f ∈ externals s.functions,
        f.sourcePath? s.workingDir s.sourceDir = some path) ∧
      ∀ f ∈ externals s.functions, ∃ path,
        f.sourcePath? s.workingDir s.sourceDir = some path ∧
          ∃ q ∈ s.includes, Path.same path q = true := by
  obtain ⟨hpairwise, hmem, hsame⟩ := foldl_insertPath_spec
    (s.functions.filterMap fun f => f.sourcePath? s.workingDir s.sourceDir)
  refine ⟨hpairwise.imp fun h => ⟨h, h.same_eq_false⟩, fun path hpath => ?_, fun f hf => ?_⟩
  · obtain ⟨f, hf, hsource⟩ := List.mem_filterMap.mp (hmem path hpath)
    have hexternal := (Function.exists_sourcePath?_iff _ _).mp ⟨path, hsource⟩
    exact ⟨f, List.mem_filter.mpr ⟨hf, hexternal⟩, hsource⟩
  · obtain ⟨hf, hexternal⟩ := List.mem_filter.mp hf
    obtain ⟨path, hsource⟩ := (Function.exists_sourcePath?_iff _ _).mpr hexternal
    exact ⟨path, hsource, hsame path (List.mem_filterMap.mpr ⟨f, hf, hsource⟩)⟩

/-! ## The lines that include files -/

/-- **What a text between quotes stands for** in a string literal, if it
can stand there: quotes and backslashes have a backslash in front, and
all else stands for itself. A quote of its own would end the literal. -/
def unescaped? : List Char → Option (List Char)
  | [] => some []
  | '\\' :: '\\' :: rest => (unescaped? rest).map ('\\' :: ·)
  | '\\' :: '"' :: rest => (unescaped? rest).map ('"' :: ·)
  | c :: rest => if c = '\\' ∨ c = '"' then none else (unescaped? rest).map (c :: ·)

theorem unescaped?_cons {c : Char} (hslash : c ≠ '\\') (hquote : c ≠ '"') (rest : List Char) :
    unescaped? (c :: rest) = (unescaped? rest).map (c :: ·) := by
  rw [unescaped?]
  · rw [if_neg (not_or.mpr ⟨hslash, hquote⟩)]
  · exact fun _ hc _ => hslash hc
  · exact fun _ hc _ => hslash hc

/-- **An escaped path stands for the path.** So it has no quote of its own
in it, and the quotes around it are where the path begins and ends.
Backslashes are escaped as well, or a path that ends in one would escape
the quote behind it. -/
theorem unescaped?_escapePath (path : String) :
    unescaped? (escapePath path).toList = some path.toList := by
  rw [escapePath, String.toList_join, List.flatMap_map]
  generalize path.toList = cs
  induction cs with
  | nil => rfl
  | cons c cs ih =>
    rw [List.flatMap_cons]
    by_cases hslash : c = '\\'
    · subst hslash
      exact congrArg (Option.map ('\\' :: ·)) ih
    · by_cases hquote : c = '"'
      · subst hquote
        exact congrArg (Option.map ('"' :: ·)) ih
      · have hsingle :
            (if c == '\\' then "\\\\" else if c == '"' then "\\\"" else c.toString).toList
              = [c] := by
          simp [hslash, hquote]
        rw [hsingle, List.singleton_append, unescaped?_cons hslash hquote, ih]
        rfl

theorem render_map_line (lines : List String) :
    Code.render (lines.map Code.line) = String.join (lines.map (· ++ "\n")) := by
  induction lines with
  | nil => rfl
  | cons line lines ih =>
    show ("" ++ line ++ "\n") ++ Code.render (lines.map Code.line) = _
    rw [ih, String.empty_append, List.map_cons, String.join_cons]

/-- **The text that includes files**: a line for each, and an empty line if
there are any. -/
theorem render_includeCode (paths : List String) :
    Code.render (includeCode paths)
      = String.join (paths.map fun path => "#include \"" ++ escapePath path ++ "\"\n")
        ++ if paths.isEmpty then "" else "\n" := by
  unfold includeCode
  split
  next hempty =>
    rw [List.isEmpty_iff.mp hempty]
    rfl
  next =>
    have hlines : paths.map (fun path => Code.line ("#include \"" ++ escapePath path ++ "\""))
        = (paths.map fun path => "#include \"" ++ escapePath path ++ "\"").map Code.line := by
      rw [List.map_map]
      rfl
    rw [Code.render_append, hlines, render_map_line, List.map_map]
    refine congrArg₂ _ (congrArg String.join (List.map_congr_left fun path _ => ?_)) rfl
    exact String.append_assoc

/-- **The text of a source**: the declarations behind a fixed beginning,
then the lines that include files, then `main`. -/
theorem render_sourceCode (s : Program) (t : Target) :
    Code.render (s.sourceCode t) = Code.render (preamble ++ s.declarationCode)
      ++ (String.join (s.includes.map fun path => "#include \"" ++ escapePath path ++ "\"\n")
        ++ if s.includes.isEmpty then "" else "\n")
      ++ Code.render [mainCode t (s.typeName t.elementType) (s.handle t.node.key)] := by
  rw [sourceCode, Code.render_append, Code.render_append, render_includeCode]

/-! ## What a source declares and includes -/

/-- **A program declares the functions listed for its target**, in the
order of the list and each once, and includes the files of those that
are external.

This is said of the text of the source. Each declaration in it is a
closed unit, so that of a function is its head, with a semicolon or with
its body. Between the declarations and `main` there is one line for each
file, which has a literal for the path of the file between its quotes,
and nothing else but an empty line. The paths are in the order of their
components and no two are the same; each is that of an external function
listed for the target, and each such function has its path there, though
maybe in another spelling. -/
theorem functions_of_collect (workingDir sourceDir : String) (t : Target) (args : RunArgs)
    (hargs : t.checkArgs args = .ok ()) :
    (newNodes t.calls).filterMap Node.function? = t.functions ∧
    t.functions.Pairwise (fun f g => f.same g = false) ∧
    ∃ s body, (start workingDir sourceDir).collect t args =
        .ok (Code.render (preamble ++ s.declarations.flatMap Declaration.code)
          ++ (String.join (s.includes.map fun path => "#include \"" ++ escapePath path ++ "\"\n")
            ++ if s.includes.isEmpty then "" else "\n")
          ++ Code.render [.block "int main(int argc, char **argv)" body ""], s) ∧
      (∀ d ∈ s.declarations, ClosedUnit d.handle d.key d.code) ∧
      (∀ path ∈ s.includes, unescaped? (escapePath path).toList = some path.toList) ∧
      s.functions = t.functions ∧
      s.includes.Pairwise (fun p q => Path.Before p q ∧ Path.same p q = false) ∧
      (∀ path ∈ s.includes, ∃ f ∈ t.externalFunctions,
        f.sourcePath? workingDir sourceDir = some path) ∧
      ∀ f ∈ t.externalFunctions, ∃ path, f.sourcePath? workingDir sourceDir = some path ∧
        ∃ q ∈ s.includes, Path.same path q = true := by
  have hstart : Settled { start workingDir sourceDir with args } [] :=
    settled_start workingDir sourceDir
  have hcollect := collect_start_eq workingDir sourceDir hargs
  simp only [render_sourceCode] at hcollect
  have hsteps : Steps (fun _ => True) ({ start workingDir sourceDir with args }, [])
      (emitAll t.calls { start workingDir sourceDir with args }, []) :=
    (steps_emitAll hstart fun _ _ _ _ => trivial).1
  rw [emitAll_eq hstart t.inOrder_calls] at hsteps
  refine ⟨t.functions_eq.symm, t.pairwise_functions, _, _, hcollect, hsteps.closed nofun,
    fun path _ => unescaped?_escapePath path, ?_⟩
  have hfunctions : (t.calls.foldl place { start workingDir sourceDir with args }).functions
      = t.functions := by
    rw [t.functions_eq]
    exact functions_eq_of_map_key (map_key_foldl_place rfl rfl t.calls)
  obtain ⟨hworkingDir, hsourceDir⟩ :=
    dirs_foldl_place { start workingDir sourceDir with args } t.calls
  generalize t.calls.foldl place { start workingDir sourceDir with args } = s at *
  have hspec := s.includes_spec
  rw [hfunctions, hworkingDir, hsourceDir] at hspec
  exact ⟨hfunctions, hspec⟩

/-- A call of an external function on what another gives: both are
declared, the argument's first, and the file of either is included, in
the order of paths. The name of one file has a quote in it. -/
theorem functions_of_collect_call :
    let f : Function := ⟨"f", .int, [⟨"n", .int⟩], .external "sub/f.cpp"⟩
    let g : Function := ⟨"g", .int, [], .external "g\".cpp"⟩
    let t : Target := .generator (.call f [.call g []])
    t.checkArgs [] = .ok () ∧
    ∃ s before after, (start "/" "/src").collect t [] = .ok (before
        ++ "#include \"/src/g\\\".cpp\"\n#include \"/src/sub/f.cpp\"\n\n" ++ after, s) ∧
      s.functions = [g, f] ∧ s.includes = ["/src/g\".cpp", "/src/sub/f.cpp"] ∧
      unescaped? "/src/g\\\".cpp".toList = some "/src/g\".cpp".toList := by
  intro f g t
  have hlisted : t.functions = [g, f] := by
    have hnew : ¬[g].any f.same = true := by decide +kernel
    show addNew Function.same [g] f = [g, f]
    rw [addNew, if_neg hnew]
    rfl
  obtain ⟨-, -, s, body, hcollect, -, hquoted, hfunctions, -⟩ :=
    functions_of_collect "/" "/src" t [] rfl
  have hincludes : s.includes = ["/src/g\".cpp", "/src/sub/f.cpp"] := by
    have hs := hcollect
    rw [collect_start_eq "/" "/src" rfl] at hs
    rw [← (Prod.mk.inj (Except.ok.inj hs)).2]
    decide +kernel
  rw [hincludes] at hcollect hquoted
  have hlines : String.join (["/src/g\".cpp", "/src/sub/f.cpp"].map fun path =>
        "#include \"" ++ escapePath path ++ "\"\n")
      ++ (if ["/src/g\".cpp", "/src/sub/f.cpp"].isEmpty then "" else "\n")
      = "#include \"/src/g\\\".cpp\"\n#include \"/src/sub/f.cpp\"\n\n" := by
    decide +kernel
  have hescaped : escapePath "/src/g\".cpp" = "/src/g\\\".cpp" := by decide +kernel
  rw [hlines] at hcollect
  exact ⟨rfl, s, _, _, hcollect, hfunctions.trans hlisted, hincludes,
    hescaped ▸ hquoted _ List.mem_cons_self⟩

end Program

end Specimen
