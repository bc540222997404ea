import Specimen.Proofs.FunctionFiles

/-!
# Where stubs end up

When missing files are created, each is written with a stub of every
function expected in it. Files are told apart by their paths, but a path
may go up again through a directory, so two of them may lead to one
place. Which paths do cannot be told beforehand, since directories are
made on the way: `x/../a.cpp` leads nowhere until there is a directory
`x`, and then to where `a.cpp` leads.

So a function is sure to be **provided for** (`Host.Provides`) only if no
missing file but its own leads where its file is. This is the main
result, `Run.stubs_of_checkFunctions`; it also says what is at any place
where missing files lead, which are the stubs of the last of them, and
that all other places are spared. Where two missing files meet, the stubs
of the first are lost (`Run.stubs_lost`).
-/

namespace Specimen

/-! ## Bytes of a part of a text -/

theorem toList_loop (bytes : ByteArray) (i : Nat) (front : List UInt8) :
    ByteArray.toList.loop bytes i front = front.reverse ++ bytes.data.toList.drop i := by
  induction i, front using ByteArray.toList.loop.induct bytes with
  | case1 i front hlt ih =>
    have hlt' : i < bytes.data.toList.length := hlt
    have hbyte : bytes.get! i = bytes.data.toList[i] := by
      show bytes.data[i]! = _
      rw [getElem!_pos bytes.data i hlt, Array.getElem_toList]
    rw [ByteArray.toList.loop, if_pos hlt, ih, List.reverse_cons, List.append_assoc, hbyte,
      List.singleton_append, ← List.drop_eq_getElem_cons]
  | case2 i front hge =>
    have hdrop : bytes.data.toList.drop i = [] := List.drop_eq_nil_of_le (Nat.not_lt.mp hge)
    rw [ByteArray.toList.loop, if_neg hge, hdrop, List.append_nil]

theorem utf8Bytes_append (a b : String) : utf8Bytes (a ++ b) = utf8Bytes a ++ utf8Bytes b := by
  have htoList : ∀ bytes : ByteArray, bytes.toList = bytes.data.toList := fun bytes =>
    toList_loop bytes 0 []
  rw [utf8Bytes, utf8Bytes, utf8Bytes, htoList, htoList, htoList]
  show (a ++ b).toByteArray.data.toList = _
  rw [String.toByteArray_append, ByteArray.data_append, Array.toList_append]
  rfl

/-- **The stub of a function is in the file of stubs** that it is expected
in. -/
theorem Program.infix_stubFile (s : Program) {file : FunctionFile} {f : Function}
    (hf : f ∈ file.functions) : utf8Bytes (s.stub f) <:+: utf8Bytes (s.stubFile file) := by
  obtain ⟨before, after, hsplit⟩ := List.append_of_mem hf
  refine ⟨utf8Bytes (String.join (before.map s.stub)),
    utf8Bytes (String.join (after.map s.stub)), ?_⟩
  rw [stubFile, hsplit, List.map_append, List.map_cons, String.join_append, String.join_cons,
    utf8Bytes_append, utf8Bytes_append, List.append_assoc]

/-! ## The file of a function -/

/-- **An external function is expected in a file**, under its own path or
another spelling of it. -/
theorem Target.exists_functionFile (workingDir sourceDir : String) {t : Target} {f : Function}
    (hf : f ∈ t.externalFunctions) : ∃ file ∈ t.functionFiles workingDir sourceDir,
      f ∈ file.functions ∧ f.isIn workingDir sourceDir file.path = true := by
  have hexternal : f.isExternal = true := (List.mem_filter.mp hf).2
  obtain ⟨path, hpath⟩ := (Function.exists_sourcePath?_iff workingDir sourceDir).mpr hexternal
  obtain ⟨-, -, hsame⟩ := Program.foldl_insertPath_spec
    (t.externalFunctions.filterMap fun f => f.sourcePath? workingDir sourceDir)
  obtain ⟨q, hq, hpq⟩ := hsame path (List.mem_filterMap.mpr ⟨f, hf, hpath⟩)
  rw [← pathsOf, ← map_path_filesOf] at hq
  obtain ⟨file, hfile, rfl⟩ := List.mem_map.mp hq
  have hin : f.isIn workingDir sourceDir file.path = true := by
    rw [Function.isIn, hpath]
    exact hpq
  refine ⟨file, hfile, ?_, hin⟩
  rw [functions_of_mem_filesOf workingDir sourceDir _ hfile]
  exact List.mem_filter.mpr ⟨hf, hin⟩

/-! ## Stubs -/

/-- **A function is provided for** by the file that a path leads to: the
file was there before and is as it was, or it has the function's
stub. -/
def Host.Provides (s : Program) (h h' : Host) (path : String) (f : Function) : Prop :=
  ∃ place e, h'.tree.find h'.here path = .ok (place, e) ∧
    ((e.isFile = true ∧ h.tree.find h.here path = .ok (place, e)) ∨
      ∃ bytes, e = .file bytes ∧ utf8Bytes (s.stub f) <:+: bytes)

/-- **What stubs were written for provides for its functions**, unless
another file leads to the same place. A later stub may have been written
there otherwise, or an earlier one be the file that was found. -/
theorem Host.Stubbed.provides {s : Program} {files : List FunctionFile} {h h' : Host}
    (hstubbed : Host.Stubbed s files h h') {file : FunctionFile} {f : Function}
    (hf : f ∈ file.functions) (hfile : file ∈ files ∨ h.tree.isFile h.here file.path = true) :
    ∃ place, h'.LeadsTo file.path place ∧
      ((∀ other ∈ files, h'.LeadsTo other.path place → other = file) →
        Host.Provides s h h' file.path f) := by
  have hthere : h'.tree.isFile h'.here file.path = true :=
    hfile.elim (hstubbed.isFile file) hstubbed.adds.isFile
  obtain ⟨place, e, hfind, he⟩ := FileTree.isFile_iff.mp hthere
  refine ⟨place, ⟨e, hfind⟩, fun hothers => ⟨place, e, hfind, ?_⟩⟩
  by_cases hwritten : ∃ other ∈ files, h'.LeadsTo other.path place
  · obtain ⟨before, last, after, hsplit, hleads, -, hget⟩ := hstubbed.last place hwritten
    have hlast : last ∈ files := hsplit ▸ List.mem_append_right _ List.mem_cons_self
    obtain rfl : last = file := hothers last hlast hleads
    rw [get?_of_find hfind] at hget
    exact .inr ⟨_, Option.some.inj hget, s.infix_stubFile hf⟩
  · -- nothing was written there, so the file was there before
    have hnone : ∀ other ∈ files, ¬h'.LeadsTo other.path place := fun other hmem hleads =>
      hwritten ⟨other, hmem, hleads⟩
    have hbefore : h.tree.isFile h.here file.path = true :=
      hfile.resolve_left fun hmem => hnone file hmem ⟨e, hfind⟩
    obtain ⟨place₀, e₀, hfind₀, he₀⟩ := FileTree.isFile_iff.mp hbefore
    obtain ⟨e', hfind', -⟩ := hstubbed.adds.keeps.find hfind₀ he₀
    rw [← hstubbed.adds.here_eq, hfind] at hfind'
    obtain ⟨rfl, -⟩ := Prod.mk.inj (Except.ok.inj hfind')
    refine .inl ⟨he, ?_⟩
    rcases hstubbed.spares place hnone with heq | ⟨hnothing, -⟩
    · rw [get?_of_find hfind, get?_of_find hfind₀] at heq
      cases heq
      exact hfind₀
    · rw [get?_of_find hfind₀] at hnothing
      cases hnothing

namespace Run

variable {c : Config} {t : Target} {h h' : Host}

/-- If looking for files succeeds, stubs were written for those that were
missing. -/
theorem stubbed_of_checkFunctions (hrun : (checkFunctions c t).run h = (.ok (), h')) :
    Host.Stubbed (Program.declared h.workingDir c.sourceDir t) (missingFiles c t h) h h' := by
  rw [run_checkFunctions] at hrun
  split at hrun
  next hempty =>
    cases hrun
    rw [List.isEmpty_iff.mp hempty]
    exact stubbed_nil _ (.refl h) (.refl _)
  split at hrun
  next =>
    obtain ⟨-, written, rest, hsplit, hstubbed, ⟨-, rfl⟩ | ⟨attempt, fault, hr⟩⟩ :=
      forM_createStubs_stubbed hrun
    · rw [hsplit, List.append_nil]
      exact hstubbed
    · cases hr
  next => cases hrun

/-- **Creating missing files provides for the functions of a target**, but
for paths that meet. If looking for files succeeds, stubs were written
where the paths of missing files lead, the last one's if several do, and
all other places are spared. Each external function is expected in a
file; and unless another missing file leads to the same place, that file
was there before and is as it was, or it has the function's stub. -/
theorem stubs_of_checkFunctions (hrun : (checkFunctions c t).run h = (.ok (), h')) :
    let s := Program.declared h.workingDir c.sourceDir t
    let missing := missingFiles c t h
    Host.Stubbed s missing h h' ∧
      ∀ f ∈ t.externalFunctions, ∃ file ∈ t.functionFiles h.workingDir c.sourceDir,
        f ∈ file.functions ∧ f.isIn h.workingDir c.sourceDir file.path = true ∧
        ∃ place, h'.LeadsTo file.path place ∧
          ((∀ other ∈ missing, h'.LeadsTo other.path place → other = file) →
            Host.Provides s h h' file.path f) := by
  have hstubbed := stubbed_of_checkFunctions hrun
  refine ⟨hstubbed, fun f hf => ?_⟩
  obtain ⟨file, hfile, hmem, hin⟩ := t.exists_functionFile h.workingDir c.sourceDir hf
  refine ⟨file, hfile, hmem, hin, hstubbed.provides hmem ?_⟩
  cases hthere : h.tree.isFile h.here file.path with
  | true => exact .inr rfl
  | false => exact .inl (List.mem_filter.mpr ⟨hfile, by rw [hthere]; rfl⟩)

/-- A function whose file is missing, with the directory it is in. -/
theorem stubs_of_checkFunctions_nested :
    let f : Function := ⟨"f", .int, [], .external "nested/f.cpp"⟩
    let t : Target := .generator (.call f [])
    let c : Config := { Config.standard with sourceDir := "/src", autoCreateFiles := true }
    let h : Host := ⟨[], "/", [], fun _ _ => .error .notFound, fun _ => none, 0, 0, [], [], [], []⟩
    ∃ h', (checkFunctions c t).run h = (.ok (), h') ∧
      Host.Provides (Program.declared "/" "/src" t) h h' "/src/nested/f.cpp" f := by
  intro f t c h
  have hok := run_of_isOk (checkFunctions c t) h (by decide +kernel)
  obtain ⟨-, hprovides⟩ := stubs_of_checkFunctions hok
  obtain ⟨file, hfile, -, -, place, -, hf⟩ := hprovides f (List.mem_singleton_self f)
  have hpaths : (t.functionFiles h.workingDir c.sourceDir).map FunctionFile.path
      = ["/src/nested/f.cpp"] := by decide +kernel
  obtain ⟨only, honly, hpath⟩ := List.map_eq_singleton_iff.mp hpaths
  rw [honly, List.mem_singleton] at hfile
  rw [← hpath, ← hfile]
  refine ⟨_, hok, hf fun other hother _ => ?_⟩
  have hmem := (List.mem_filter.mp hother).1
  rw [honly, List.mem_singleton] at hmem
  rw [hmem, hfile]

/-- **Stubs are lost** where two missing files meet: both are created, the
second where the first is, and the first function is not provided for.
Their paths differ by a step into a directory and back, which the list of
files does not take away. -/
theorem stubs_lost :
    let f : Function := ⟨"f", .int, [], .external "a.cpp"⟩
    let g : Function := ⟨"g", .int, [⟨"n", .int⟩], .external "x/../a.cpp"⟩
    let t : Target := .generator (.call g [.call f []])
    let c : Config := { Config.standard with sourceDir := "/src", autoCreateFiles := true }
    let h : Host := ⟨[], "/", [], fun _ _ => .error .notFound, fun _ => none, 0, 0, [], [], [], []⟩
    f ∈ t.externalFunctions ∧ f.sourcePath? "/" "/src" = some "/src/a.cpp" ∧
    ∃ h', (checkFunctions c t).run h = (.ok (), h') ∧
      ¬Host.Provides (Program.declared "/" "/src" t) h h' "/src/a.cpp" f := by
  intro f g t c h
  have hok := run_of_isOk (checkFunctions c t) h (by decide +kernel)
  have hlisted : t.functions = [f, g] := by
    have hnew : ¬[f].any g.same = true := by decide +kernel
    show addNew Function.same [f] g = [f, g]
    rw [addNew, if_neg hnew]
    rfl
  have hf : f ∈ t.externalFunctions := by
    rw [Target.externalFunctions, hlisted]
    exact List.mem_cons_self
  refine ⟨hf, by decide +kernel, _, hok, ?_⟩
  rintro ⟨place, e, hfind, ⟨he, hbefore⟩ | ⟨bytes, rfl, hstub⟩⟩
  · have hnone : h.tree.isFile h.here "/src/a.cpp" = false := by decide +kernel
    rw [FileTree.isFile_iff.mpr ⟨place, e, hbefore, he⟩] at hnone
    cases hnone
  · -- what the file has in the end are the stubs of the other
    have hwritten : ((checkFunctions c t).run h).2.tree.fileBytes
        ((checkFunctions c t).run h).2.here "/src/a.cpp"
          = .ok (utf8Bytes "int g(const int &n) \x7b\n  return \x7b\x7d;\n\x7d\n\n") := by
      decide +kernel
    rw [FileTree.fileBytes, hfind] at hwritten
    cases hwritten
    revert hstub
    decide +kernel

end Run

end Specimen
