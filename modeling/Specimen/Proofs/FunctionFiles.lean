import Specimen.Proofs.FunctionHeads

/-!
# The files looked for are the files included

Before a program is built, the files of its functions are looked for; in
the source they are included. The two lists of files are made apart. One
has each file with the functions in it, and grows by the functions that
are listed for the target; the other has paths only, and grows by the
functions that were declared. What they have in common is how a path is
put in: a path that is there already, in whatever spelling, keeps the
one it has (`FunctionFile.map_path_add`). As the functions come in the
same order, the lists are the same (`Program.includes_foldl_place`), and
looking for the files tells whether the source will find what it
includes (`Program.includes_of_checkFunctions`).
-/

namespace Specimen

/-! ## Files and their functions -/

namespace FunctionFile

/-- **Adding a function puts its path in** as a path is put into the
files to include. -/
theorem map_path_add (path : String) (f : Function) (files : List FunctionFile) :
    (add path f files).map FunctionFile.path
      = Program.insertPath path (files.map FunctionFile.path) := by
  induction files with
  | nil => rfl
  | cons g rest ih =>
    rw [add, List.map_cons, Program.insertPath]
    split
    · rfl
    · split
      · rfl
      · rw [List.map_cons, ih]

/-- What the files are once a function is added: one has it in addition,
or it has a file of its own, and the others are as they were. -/
theorem mem_add {path : String} {f : Function} {files : List FunctionFile} {g : FunctionFile}
    (hpaths : (files.map FunctionFile.path).Pairwise Path.Before) (hg : g ∈ add path f files) :
    (∃ g₀ ∈ files, Path.same path g₀.path = true ∧ g = ⟨g₀.path, g₀.functions ++ [f]⟩) ∨
      (g = ⟨path, [f]⟩ ∧ ∀ g₀ ∈ files, Path.same path g₀.path = false) ∨
      (g ∈ files ∧ Path.same path g.path = false) := by
  induction files with
  | nil => exact .inr (.inl ⟨List.mem_singleton.mp hg, nofun⟩)
  | cons first rest ih =>
    obtain ⟨hfirst, hrest⟩ := List.pairwise_cons.mp hpaths
    have hbehind : ∀ g₀ ∈ rest, Path.place first.path < Path.place g₀.path := fun g₀ hg₀ =>
      Path.before_iff.mp (hfirst _ (List.mem_map_of_mem hg₀))
    -- a path at or before the first is none of those behind it
    have hother : Path.place path ≤ Path.place first.path →
        ∀ g₀ ∈ rest, Path.same path g₀.path = false := fun hle g₀ hg₀ => by
      rw [Bool.eq_false_iff, Ne, Path.same_iff]
      exact (hle.trans_lt (hbehind g₀ hg₀)).ne
    unfold add at hg
    split at hg
    next hsame =>
      rcases List.mem_cons.mp hg with rfl | hg
      · exact .inl ⟨first, List.mem_cons_self, hsame, rfl⟩
      · exact .inr (.inr ⟨List.mem_cons_of_mem _ hg, hother (Path.same_iff.mp hsame).le g hg⟩)
    next hne =>
      rw [Bool.not_eq_true] at hne
      split at hg
      next hlt =>
        have hfiles : ∀ g₀ ∈ first :: rest, Path.same path g₀.path = false :=
          List.forall_mem_cons.mpr ⟨hne, hother (Path.before_iff.mp hlt).le⟩
        rcases List.mem_cons.mp hg with rfl | hg
        · exact .inr (.inl ⟨rfl, hfiles⟩)
        · exact .inr (.inr ⟨hg, hfiles g hg⟩)
      next =>
        rcases List.mem_cons.mp hg with rfl | hg
        · exact .inr (.inr ⟨List.mem_cons_self, hne⟩)
        · rcases ih hrest hg with ⟨g₀, hg₀, h⟩ | ⟨h, hfiles⟩ | ⟨hg, h⟩
          · exact .inl ⟨g₀, List.mem_cons_of_mem _ hg₀, h⟩
          · exact .inr (.inl ⟨h, List.forall_mem_cons.mpr ⟨hne, hfiles⟩⟩)
          · exact .inr (.inr ⟨List.mem_cons_of_mem _ hg, h⟩)

end FunctionFile

section

variable (workingDir sourceDir : String)

/-- Whether a function is expected in the file at a path. -/
def Function.isIn (path : String) (f : Function) : Bool :=
  (f.sourcePath? workingDir sourceDir).any fun p => Path.same p path

/-- The files that some functions are expected in. -/
def filesOf (fs : List Function) : List FunctionFile :=
  fs.foldl
    (fun files f =>
      match f.sourcePath? workingDir sourceDir with
      | some path => FunctionFile.add path f files
      | none => files)
    []

/-- The paths of the files that some functions are expected in. -/
def pathsOf (fs : List Function) : List String :=
  (fs.filterMap fun f => f.sourcePath? workingDir sourceDir).foldl
    (fun paths path => Program.insertPath path paths) []

theorem filesOf_snoc (fs : List Function) (f : Function) :
    filesOf workingDir sourceDir (fs ++ [f]) = match f.sourcePath? workingDir sourceDir with
      | some path => FunctionFile.add path f (filesOf workingDir sourceDir fs)
      | none => filesOf workingDir sourceDir fs := by
  rw [filesOf, List.foldl_append]
  rfl

/-- **The files have the functions' paths**, put in one by one. -/
theorem map_path_filesOf (fs : List Function) :
    (filesOf workingDir sourceDir fs).map FunctionFile.path = pathsOf workingDir sourceDir fs := by
  induction fs using List.reverseRecOn with
  | nil => rfl
  | append_singleton fs f ih =>
    rw [filesOf_snoc, pathsOf, List.filterMap_append, List.foldl_append, ← pathsOf, ← ih,
      List.filterMap_cons]
    cases f.sourcePath? workingDir sourceDir with
    | none => rfl
    | some path => exact FunctionFile.map_path_add path f _

/-- **A file has the functions expected in it**, in the order they come.
The list of files is put together one function at a time, so the induction
is from its end. -/
theorem functions_of_mem_filesOf (fs : List Function) {g : FunctionFile}
    (hg : g ∈ filesOf workingDir sourceDir fs) :
    g.functions = fs.filter (Function.isIn workingDir sourceDir g.path) := by
  induction fs using List.reverseRecOn generalizing g with
  | nil => cases hg
  | append_singleton fs f ih =>
    obtain ⟨hpairwise, -, hsame⟩ := Program.foldl_insertPath_spec
      (fs.filterMap fun f => f.sourcePath? workingDir sourceDir)
    rw [← pathsOf, ← map_path_filesOf] at hpairwise hsame
    rw [filesOf_snoc] at hg
    rw [List.filter_append, List.filter_singleton, Function.isIn]
    cases hpath : f.sourcePath? workingDir sourceDir with
    | none =>
      rw [hpath] at hg
      rw [ih hg]
      exact (List.append_nil _).symm
    | some path =>
      rw [hpath] at hg
      rcases FunctionFile.mem_add hpairwise hg with ⟨g₀, hg₀, hin, rfl⟩ | ⟨rfl, hnew⟩ | ⟨hg, hout⟩
      · rw [Option.any_some, hin, ih hg₀]
        rfl
      · -- no function came with this path before
        have hnone : fs.filter (Function.isIn workingDir sourceDir path) = [] := by
          refine List.filter_eq_nil_iff.mpr fun f' hf' hin => ?_
          obtain ⟨p, hp, hpsame⟩ := (Option.any_eq_true _ _).mp hin
          obtain ⟨_, hq, hpq⟩ := hsame p (List.mem_filterMap.mpr ⟨f', hf', hp⟩)
          obtain ⟨g₀, hg₀, rfl⟩ := List.mem_map.mp hq
          have hfound : Path.same path g₀.path = true := Path.same_iff.mpr
            ((Path.same_iff.mp hpsame).symm.trans (Path.same_iff.mp hpq))
          rw [hnew g₀ hg₀] at hfound
          cases hfound
        rw [hnone, Option.any_some, Path.same_iff.mpr rfl]
        rfl
      · rw [Option.any_some, hout, ih hg]
        exact (List.append_nil _).symm

end

/-- **The functions of a target by their files**: those of the files at
some paths, file by file. -/
theorem Target.flatMap_functionFiles (workingDir sourceDir : String) (t : Target)
    (p : String → Bool) :
    ((t.functionFiles workingDir sourceDir).filter fun file => p file.path).flatMap
        FunctionFile.functions
      = ((pathsOf workingDir sourceDir t.externalFunctions).filter p).flatMap fun path =>
          t.externalFunctions.filter (Function.isIn workingDir sourceDir path) := by
  rw [← map_path_filesOf, List.filter_map, List.flatMap_map]
  refine List.flatMap_congr fun file hfile => ?_
  exact functions_of_mem_filesOf workingDir sourceDir _ (List.mem_filter.mp hfile).1

namespace Program

/-! ## The files to include -/

/-- **The files to include** in the source of a target, under any
arguments, are those its external functions are expected in. The one list
is put together from declarations and the other from functions, but both
take paths that are spelled alike for one and keep the first. -/
theorem includes_foldl_place (workingDir sourceDir : String) (t : Target) (args : RunArgs) :
    (t.calls.foldl place { start workingDir sourceDir with args }).includes
      = pathsOf workingDir sourceDir t.externalFunctions := by
  obtain ⟨hworkingDir, hsourceDir⟩ :=
    dirs_foldl_place { start workingDir sourceDir with args } t.calls
  have hexternal : t.functions.filterMap (fun f => f.sourcePath? workingDir sourceDir)
      = t.externalFunctions.filterMap fun f => f.sourcePath? workingDir sourceDir := by
    rw [Target.externalFunctions, externals, List.filterMap_filter]
    refine List.filterMap_congr fun f _ => ?_
    split
    next => rfl
    next hinline =>
      refine Option.eq_none_iff_forall_ne_some.mpr fun path hpath => hinline ?_
      exact (Function.exists_sourcePath?_iff workingDir sourceDir).mp ⟨path, hpath⟩
  rw [includes, functions_foldl_place, hworkingDir, hsourceDir, pathsOf, ← hexternal]
  rfl

end Program

/-! ## Looking for the files -/

namespace Run

/-- **If looking for files succeeds, each is there.** Files that were
there before are still files, though one of them may have other text now,
and each of the others was written. -/
theorem isFile_of_checkFunctions {c : Config} {t : Target} {h h' : Host}
    (hrun : (checkFunctions c t).run h = (.ok (), h')) :
    ∀ file ∈ t.functionFiles h.workingDir c.sourceDir,
      h'.tree.isFile h'.here file.path = true := by
  intro file hfile
  rw [run_checkFunctions] at hrun
  by_cases hthere : h.tree.isFile h.here file.path = true
  · split at hrun
    next =>
      cases hrun
      exact hthere
    split at hrun
    next => exact (forM_createStubs hrun).1.isFile hthere
    next => cases hrun
  · have hmissing : file ∈ missingFiles c t h :=
      List.mem_filter.mpr ⟨hfile, by rw [Bool.eq_false_iff.mpr hthere]; rfl⟩
    split at hrun
    next hempty =>
      rw [List.isEmpty_iff.mp hempty] at hmissing
      cases hmissing
    split at hrun
    next =>
      obtain ⟨-, ⟨-, hcreated⟩ | ⟨attempt, fault, hr⟩⟩ := forM_createStubs hrun
      · exact hcreated file hmissing
      · cases hr
    next => cases hrun

end Run

namespace Program

open Run in
/-- **The files looked for are the files included.** The source has a line
for each file it includes, with a literal for the file's path between its
quotes. If looking for the files of a target's functions succeeds, each of
these is there, whether it was there before or was created.

Unless files are created, nothing is changed by looking, and it succeeds
if each is there and fails otherwise. The complaint then lists the files to
include that are not there, in the order of their lines and spelled as
they are there, and file by file the heads of the functions expected in
them. -/
theorem includes_of_checkFunctions (c : Config) (t : Target) (args : RunArgs) (h : Host)
    (hargs : t.checkArgs args = .ok ()) :
    ∃ s, (start h.workingDir c.sourceDir).collect t args = .ok (Code.render (s.sourceCode t), s) ∧
      Code.render (s.sourceCode t) = Code.render (preamble ++ s.declarationCode)
        ++ (String.join (s.includes.map fun path => "#include \"" ++ escapePath path ++ "\"\n")
          ++ if s.includes.isEmpty then "" else "\n")
        ++ Code.render [mainCode t (s.typeName t.elementType) (s.handle t.node.key)] ∧
      (∀ path ∈ s.includes, unescaped? (escapePath path).toList = some path.toList) ∧
      (∀ h', (checkFunctions c t).run h = (.ok (), h') →
        ∀ path ∈ s.includes, h'.tree.isFile h'.here path = true) ∧
      (c.autoCreateFiles = false →
        let missing := s.includes.filter fun path => !h.tree.isFile h.here path
        let expected := missing.flatMap fun path =>
          t.externalFunctions.filter (Function.isIn h.workingDir c.sourceDir path)
        ((∀ path ∈ s.includes, h.tree.isFile h.here path = true) →
          (checkFunctions c t).run h = (.ok (), h)) ∧
        ((∃ path ∈ s.includes, h.tree.isFile h.here path = false) →
          (checkFunctions c t).run h
            = (.error (.error (.missingFiles missing (expected.map s.functionHead))), h))) := by
  refine ⟨_, collect_start_eq h.workingDir c.sourceDir hargs, render_sourceCode _ t,
    fun path _ => unescaped?_escapePath path, ?_⟩
  have hheads : (declared h.workingDir c.sourceDir t).functionHead = _ :=
    funext (functionHead_declared h.workingDir c.sourceDir t args)
  have hpaths : (t.functionFiles h.workingDir c.sourceDir).map FunctionFile.path = _ :=
    (map_path_filesOf ..).trans (includes_foldl_place h.workingDir c.sourceDir t args).symm
  have hexpected : (missingFiles c t h).flatMap FunctionFile.functions = _ :=
    t.flatMap_functionFiles h.workingDir c.sourceDir fun path => !h.tree.isFile h.here path
  rw [← includes_foldl_place h.workingDir c.sourceDir t args] at hexpected
  generalize t.calls.foldl place { start h.workingDir c.sourceDir with args } = s
    at hheads hpaths hexpected ⊢
  -- a property of all files to include is one of all files of functions
  have hforall : ∀ p : String → Prop, (∀ path ∈ s.includes, p path)
      ↔ ∀ file ∈ t.functionFiles h.workingDir c.sourceDir, p file.path := fun p => by
    rw [← hpaths, List.forall_mem_map]
  refine ⟨fun h' hrun => (hforall _).mpr (isFile_of_checkFunctions hrun), fun hauto => ?_⟩
  have hempty : (missingFiles c t h).isEmpty = true
      ↔ ∀ path ∈ s.includes, h.tree.isFile h.here path = true := by
    rw [hforall, List.isEmpty_iff, missingFiles, List.filter_eq_nil_iff]
    simp only [Bool.not_eq_true', Bool.not_eq_false]
  refine ⟨fun hall => ?_, fun ⟨path, hpath, hno⟩ => ?_⟩
  · rw [run_checkFunctions, if_pos (hempty.mpr hall)]
  · have hmissing : (missingFiles c t h).map FunctionFile.path
        = s.includes.filter fun path => !h.tree.isFile h.here path := by
      rw [← hpaths, List.filter_map]
      rfl
    have hne : ¬(missingFiles c t h).isEmpty = true := fun hall => by
      rw [hempty.mp hall path hpath] at hno
      cases hno
    rw [run_checkFunctions, if_neg hne, hauto, hmissing, hheads, ← List.map_flatMap, hexpected]
    rfl

open Run in
/-- Two functions in one file, which is spelled with a slash behind it the
second time: there is one line for it, and it is missing once, as it was
spelled first. When it is created it is there. -/
theorem includes_of_checkFunctions_twice :
    let f : Function := ⟨"f", .int, [], .external "f.cpp"⟩
    let g : Function := ⟨"g", .int, [⟨"n", .int⟩], .external "f.cpp/"⟩
    let t : Target := .generator (.call g [.call f []])
    let c : Config := { Config.standard with sourceDir := "/src" }
    let h : Host := ⟨[], "/", [], fun _ _ => .error .notFound, fun _ => none, 0, 0, [], [], [], []⟩
    t.checkArgs [] = .ok () ∧
    (∃ s before after, (start "/" "/src").collect t []
        = .ok (before ++ "#include \"/src/f.cpp\"\n\n" ++ after, s) ∧
      s.includes = ["/src/f.cpp"] ∧ (checkFunctions c t).run h = (.error (.error
        (.missingFiles ["/src/f.cpp"] ["int f()", "int g(const int &n)"])), h)) ∧
    ∃ h', (checkFunctions { c with autoCreateFiles := true } t).run h = (.ok (), h') ∧
      h'.tree.isFile h'.here "/src/f.cpp" = true := by
  intro f g t c h
  have hargs : t.checkArgs [] = .ok () := rfl
  have hknown : ∀ {source s}, (start "/" "/src").collect t [] = .ok (source, s) →
      s.includes = ["/src/f.cpp"] ∧
        (t.externalFunctions.filter (Function.isIn "/" "/src" "/src/f.cpp")).map s.functionHead
          = ["int f()", "int g(const int &n)"] := fun {source s} hs => by
    rw [collect_start_eq "/" "/src" hargs] at hs
    rw [← (Prod.mk.inj (Except.ok.inj hs)).2]
    decide +kernel
  obtain ⟨s, hs, htext, -, -, hlook⟩ := includes_of_checkFunctions c t [] h hargs
  obtain ⟨s', hs', -, -, hcreate, -⟩ :=
    includes_of_checkFunctions { c with autoCreateFiles := true } t [] h hargs
  obtain ⟨hincludes, hheads⟩ := hknown hs
  have hline : String.join (["/src/f.cpp"].map fun path =>
        "#include \"" ++ escapePath path ++ "\"\n")
      ++ (if ["/src/f.cpp"].isEmpty then "" else "\n") = "#include \"/src/f.cpp\"\n\n" := by
    decide +kernel
  rw [htext, hincludes, hline] at hs
  refine ⟨hargs, ⟨s, _, _, hs, hincludes, ?_⟩, ?_⟩
  · have hnone : h.tree.isFile h.here "/src/f.cpp" = false := by decide +kernel
    have hmissing : ["/src/f.cpp"].filter (fun path => !h.tree.isFile h.here path)
        = ["/src/f.cpp"] := by
      rw [List.filter_singleton, hnone]
      rfl
    obtain ⟨-, hrun⟩ := hlook rfl
    rw [hincludes, hmissing, List.flatMap_singleton] at hrun
    rw [hrun ⟨_, List.mem_singleton_self _, hnone⟩, ← hheads]
  · have hok := run_of_isOk (checkFunctions { c with autoCreateFiles := true } t) h
      (by decide +kernel)
    exact ⟨_, hok, hcreate _ hok _ ((hknown hs').1 ▸ List.mem_singleton_self _)⟩

end Program

end Specimen
