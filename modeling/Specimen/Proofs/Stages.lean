import Specimen.Proofs.DeclaringInOrder
import Specimen.Proofs.Executions
import Specimen.Proofs.Sources
import Specimen.Proofs.StubPlaces
import Specimen.Run.Collect

/-!
# The stages of a run

Collecting a value goes through five stages: the files of functions are
looked for, the arguments are checked, the source is written, the
compiler makes a program of it, and the program is run. Each may fail,
for reasons of its own, and then the run is over: what later stages
would do must not be done, and what earlier ones did must be no more
than what they are there for.

How a run goes is told by where it ends (`Host.Collected`). Up to the
compiler nothing differs but files, and these are only **prepared**
(`Host.Prepared`): a place has the stubs of a missing file whose path
leads there, or the source, and all others are spared; what is new there
is a directory on the way to one of these. What the compiler and the
program do is up to them.

The main result is `Run.collect_stages`. Unless debugging, the source is
where nothing was, so what was there before is as it was
(`Host.Prepared.get?_eq`). But there is an exception: the path of a
missing file may lead to a file once directories are made, and that file
is lost (`Run.existing_file_lost`).
-/

namespace Specimen

/-- The stubs of a missing file, where its path leads. -/
def Host.HasStubs (s : Program) (files : List FunctionFile) (h : Host) (place : Place) : Prop :=
  ∃ file ∈ files, h.LeadsTo file.path place ∧
    h.tree.get? place = some (.file (utf8Bytes (s.stubFile file)))

/-- **Where stubs are they stay**, as long as their place is spared. -/
theorem Host.HasStubs.of_spares {s : Program} {files : List FunctionFile} {h h' : Host}
    {place : Place} (hstubs : h.HasStubs s files place) (hhere : h'.here = h.here)
    (hkeeps : h.tree.Keeps h'.tree) (hspares : h.tree.Spares h'.tree place) :
    h'.HasStubs s files place := by
  obtain ⟨file, hfile, ⟨e, hfind⟩, hget⟩ := hstubs
  cases (get?_of_find hfind).symm.trans hget
  obtain ⟨e', hfind', -⟩ := hkeeps.find hfind rfl
  rw [← hhere] at hfind'
  refine ⟨file, hfile, ⟨e', hfind'⟩, ?_⟩
  rcases hspares with heq | ⟨hnone, -⟩
  · exact heq.trans hget
  · rw [hget] at hnone
    cases hnone

/-- A source, where its path leads. -/
def Host.HasSource (source : String × String) (h : Host) (place : Place) : Prop :=
  h.tree.find h.here source.1 = .ok (place, .file (utf8Bytes source.2))

/-- The directories that may be made: those of missing files and, once
something is to be written there, the build directory. -/
def Config.dirs (c : Config) (t : Target) (building : Bool) (h : Host) : List String :=
  FunctionFile.dirs (Run.missingFiles c t h) ++ if building then c.buildDirs h else []

/-- **A host is prepared** for the compiler, with a source under a path
once it is written. -/
structure Host.Prepared (c : Config) (t : Target) (building : Bool)
    (source : Option (String × String)) (h h' : Host) : Prop where
  /-- Nothing differs but the files and the number for the next
  source. -/
  eq : h' = { h with tree := h'.tree, nextSource := h'.nextSource }
  /-- Each place has stubs or the source, or is spared. -/
  places : ∀ place, h.tree.Spares h'.tree place ∨
    h'.HasStubs (Program.declared h.workingDir c.sourceDir t) (Run.missingFiles c t h) place ∨
    ∃ s ∈ source, h'.HasSource s place
  /-- Directories were made on the ways to those that are needed. -/
  ways : h.tree.WaysMade h.here (c.dirs t building h) h'.tree
  /-- A source is in one place, where nothing was unless debugging. -/
  source : ∀ s ∈ source, ∃ place, h'.HasSource s place ∧
    (c.debug = false → h.tree.get? place = none)

namespace Host.Prepared

variable {c : Config} {t : Target} {building : Bool} {source : Option (String × String)} {h h₁ h' : Host}

/-- **What was there before is as it was** unless debugging, but where the
path of a missing file leads. When debugging, one source file is written
over every time. -/
theorem get?_eq (hprepared : Host.Prepared c t building source h h') (hdebug : c.debug = false)
    {place : Place} {e : Entry} (he : h.tree.get? place = some e)
    (hnone : ∀ file ∈ Run.missingFiles c t h, ¬h'.LeadsTo file.path place) :
    h'.tree.get? place = some e := by
  rcases hprepared.places place with heq | ⟨file, hfile, hleads, -⟩ | ⟨s, hs, hplace⟩
  · rcases heq with heq | ⟨hnothing, -⟩
    · exact heq.trans he
    · rw [he] at hnothing
      cases hnothing
  · exact absurd hleads (hnone file hfile)
  · obtain ⟨other, hother, hfresh⟩ := hprepared.source s hs
    rw [HasSource] at hplace hother
    rw [hplace] at hother
    cases hother
    rw [hfresh hdebug] at he
    cases he

/-- Writing stubs prepares a host. -/
theorem of_stubbed {files : List FunctionFile}
    (hstubbed : Host.Stubbed (Program.declared h.workingDir c.sourceDir t) files h h')
    (hfiles : files ⊆ Run.missingFiles c t h)
    (hways : h.tree.WaysMade h.here (FunctionFile.dirs (Run.missingFiles c t h)) h'.tree) :
    Host.Prepared c t false none h h' where
  eq := by
    obtain ⟨tree, rfl⟩ : ∃ tree, h' = { h with tree } := ⟨_, hstubbed.adds.eq⟩
    rfl
  places place := by
    by_cases hleads : ∃ file ∈ files, h'.LeadsTo file.path place
    · obtain ⟨before, file, after, rfl, hfile, -, hget⟩ := hstubbed.last place hleads
      exact .inr (.inl ⟨file, hfiles (List.mem_append_right _ List.mem_cons_self), hfile, hget⟩)
    · exact .inl (hstubbed.spares place fun file hmem hfile => hleads ⟨file, hmem, hfile⟩)
  ways := hways.mono (List.subset_append_left _ _)
  source := nofun

/-- The ways that are made when a source is written. -/
theorem ways_trans (hprepared : Host.Prepared c t false none h h₁)
    (hways : h₁.tree.WaysMade h₁.here (c.buildDirs h₁) h'.tree)
    (hkeeps : h₁.tree.Keeps h'.tree) : h.tree.WaysMade h.here (c.dirs t true h) h'.tree := by
  obtain ⟨tree, n, rfl⟩ : ∃ tree n, h₁ = { h with tree, nextSource := n } :=
    ⟨_, _, hprepared.eq⟩
  refine (hprepared.ways.mono ?_).trans (hways.mono (List.subset_append_right _ _)) hkeeps
  rw [Config.dirs, if_neg Bool.false_ne_true, List.append_nil]
  exact List.subset_append_left _ _

/-- **Writing a source** leaves a host prepared, with the source. -/
theorem of_written {text path : String} (hprepared : Host.Prepared c t false none h h₁)
    (hwritten : Host.Written c text path h₁ h') :
    Host.Prepared c t true (some (path, text)) h h' := by
  obtain ⟨place, hfind, hfresh, hothers⟩ := hwritten.source
  have heq : h' = { h with tree := h'.tree, nextSource := h'.nextSource } := by
    rw [hwritten.eq, hprepared.eq]
  have hhere : h'.here = h₁.here := by rw [hwritten.eq]; rfl
  refine ⟨heq, fun other => ?_, hprepared.ways_trans hwritten.ways hwritten.keeps, fun s hs => ?_⟩
  · by_cases hother : other = place
    · exact .inr (.inr ⟨(path, text), rfl, hother ▸ hfind⟩)
    · have hspares := hothers other hother
      rcases hprepared.places other with hbefore | hstubs | ⟨_, hs, -⟩
      · exact .inl (hbefore.trans hspares)
      · exact .inr (.inl (hstubs.of_spares hhere hwritten.keeps hspares))
      · cases hs
  · cases hs
    refine ⟨place, hfind, fun hdebug => ?_⟩
    rcases hprepared.places place with heq | ⟨_, _, _, hget⟩ | ⟨_, hs, -⟩
    · rcases heq with heq | ⟨hnone, -⟩
      · exact heq.symm.trans (hfresh hdebug)
      · exact hnone
    · rw [hfresh hdebug] at hget
      cases hget
    · cases hs

/-- A source that could not be written leaves a host prepared. -/
theorem of_spares {t' : FileTree} {n : Nat} (hprepared : Host.Prepared c t false none h h₁)
    (hspares : ∀ place, h₁.tree.Spares t' place)
    (hways : h₁.tree.WaysMade h₁.here (c.buildDirs h₁) t') :
    Host.Prepared c t true none h { h₁ with tree := t', nextSource := n } where
  eq := by rw [hprepared.eq]
  places place := by
    rcases hprepared.places place with hbefore | hstubs | ⟨_, hs, -⟩
    · exact .inl (hbefore.trans (hspares place))
    · exact .inr (.inl (hstubs.of_spares rfl (.of_spares hspares) (hspares place)))
    · cases hs
  ways := hprepared.ways_trans hways (.of_spares hspares)
  source := nofun

end Host.Prepared

/-! ## Where a run ends -/

/-- The call of the compiler for a source. -/
def Config.compilation (c : Config) (h : Host) (source : String) : Invocation :=
  ⟨(c.compilerCommand h.surroundings).1,
    "-o" :: Path.withoutExtension source :: source :: (c.compilerCommand h.surroundings).2⟩

/-- The host once a program was started and has ended. -/
def Host.after (h : Host) (call : Invocation) (o : Outcome) : Host :=
  { h with tree := o.tree, started := h.started ++ [call] }

/-- **A run has come as far as the compiler**: files of functions were
looked for, the arguments fit, and the source was written. -/
structure Host.Sourced (c : Config) (t : Target) (args : RunArgs) (text source : String)
    (h h' : Host) : Prop where
  /-- The first stage and the third one went well. -/
  stages : ∃ h₁, (Run.checkFunctions c t).run h = (.ok (), h₁) ∧
    (Run.writeSource c text).run h₁ = (.ok source, h')
  /-- The arguments fit. -/
  fit : t.checkArgs args = .ok ()
  /-- The source is that of the target's program. -/
  built : Program.sourceOf h.workingDir c.sourceDir t args = .ok text
  /-- The source is there. -/
  prepared : Host.Prepared c t true (some (source, text)) h h'

/-- **How collecting a value goes**: where it ends, with which result, and
the host it is left on. -/
inductive Host.Collected (c : Config) (t : Target) (args : RunArgs) (h : Host) :
    Except Failure (Option Value) → Host → Prop where
  /-- Files of functions are missing, and not created. -/
  | unchecked {e : Failure} {h' : Host}
      (check : (Run.checkFunctions c t).run h = (.error e, h'))
      (prepared : Host.Prepared c t false none h h') : Collected c t args h (.error e) h'
  /-- The arguments do not fit. -/
  | unfit {e : Error} {h' : Host} (check : (Run.checkFunctions c t).run h = (.ok (), h'))
      (misfit : t.checkArgs args = .error e) (prepared : Host.Prepared c t false none h h') :
      Collected c t args h (.error (.error e)) h'
  /-- The source was not written. -/
  | unwritten {text : String} {e : Failure} {h₁ h' : Host}
      (check : (Run.checkFunctions c t).run h = (.ok (), h₁)) (fit : t.checkArgs args = .ok ())
      (built : Program.sourceOf h.workingDir c.sourceDir t args = .ok text)
      (write : (Run.writeSource c text).run h₁ = (.error e, h'))
      (prepared : Host.Prepared c t true none h h') : Collected c t args h (.error e) h'
  /-- The compiler was not started. -/
  | notStarted {text source : String} {fault : SystemFault} {h' : Host}
      (sourced : Host.Sourced c t args text source h h')
      (refused : h.execute (c.compilation h source) h'.tree = .error fault) :
      Collected c t args h (.error (.system
        ("invoke compiler: " ++ quotedBytes (c.compilation h source).program) fault)) h'
  /-- The compiler has made no program. -/
  | notCompiled {text source : String} {o : Outcome} {h₁ : Host}
      (sourced : Host.Sourced c t args text source h h₁)
      (compiled : h.execute (c.compilation h source) h₁.tree = .ok o)
      (failed : o.ending.success = false) :
      Collected c t args h (.error (.error (.compileFailed
        (lenientText (c.compilation h source).program) o.ending.code source
        (lenientText o.stderr)))) (h₁.after (c.compilation h source) o)
  /-- The program that the compiler has made was run. -/
  | ran {text source : String} {o : Outcome} {h₁ h' : Host} {r : Except Failure (Option Value)}
      (sourced : Host.Sourced c t args text source h h₁)
      (compiled : h.execute (c.compilation h source) h₁.tree = .ok o)
      (success : o.ending.success = true)
      (run : (Run.runProgram (Path.withoutExtension source) t.elementType).run
        (h₁.after (c.compilation h source) o) = (r, h'))
      (executed : (h₁.after (c.compilation h source) o).Executed
        (Path.withoutExtension source) t.elementType r h') : Collected c t args h r h'

/-! ## The stages -/

namespace Program

/-- Arguments that do not fit are refused, whatever the target. -/
theorem sourceOf_of_unfit {workingDir sourceDir : String} {t : Target} {args : RunArgs} {e : Error}
    (hargs : t.checkArgs args = .error e) : sourceOf workingDir sourceDir t args = .error e := by
  rw [sourceOf, collect, hargs]
  rfl

/-- **Arguments that fit give a source.** -/
theorem sourceOf_of_fit (workingDir sourceDir : String) {t : Target} {args : RunArgs}
    (hargs : t.checkArgs args = .ok ()) : ∃ text, sourceOf workingDir sourceDir t args = .ok text :=
  ⟨_, sourceOf_eq workingDir sourceDir hargs⟩

end Program

namespace Run

variable {c : Config} {t : Target} {args : RunArgs} {h h' : Host}

/-- **Looking for files leaves a host prepared**, whether it fails or
not. -/
theorem prepared_of_checkFunctions {r : Except Failure Unit}
    (hrun : (checkFunctions c t).run h = (r, h')) : Host.Prepared c t false none h h' := by
  have hunchanged : Host.Prepared c t false none h h :=
    .of_stubbed (stubbed_nil _ (.refl h) (.refl _)) (List.nil_subset _) (.refl _ _ _)
  rw [run_checkFunctions] at hrun
  split at hrun
  next =>
    cases hrun
    exact hunchanged
  split at hrun
  next =>
    obtain ⟨hways, written, rest, hsplit, hstubbed, -⟩ := forM_createStubs_stubbed hrun
    exact .of_stubbed hstubbed (hsplit ▸ List.subset_append_left _ _) hways
  next =>
    cases hrun
    exact hunchanged

theorem run_buildSource (c : Config) (t : Target) (args : RunArgs) (h : Host) :
    (buildSource c t args).run h =
      ((Program.sourceOf h.workingDir c.sourceDir t args).mapError .error, h) := by
  rw [buildSource, run_bind, run_get]
  dsimp only
  cases Program.sourceOf h.workingDir c.sourceDir t args <;> rfl

/-- Compiling a source. -/
theorem run_compile (c : Config) (source : String) (h : Host) :
    (compile c source).run h = match h.execute (c.compilation h source) h.tree with
      | .error fault => (.error (.system
          ("invoke compiler: " ++ quotedBytes (c.compilation h source).program) fault), h)
      | .ok o =>
        (if o.ending.success then .ok (Path.withoutExtension source)
          else .error (.error (.compileFailed (lenientText (c.compilation h source).program)
            o.ending.code source (lenientText o.stderr))), h.after (c.compilation h source) o) := by
  rw [compile, run_bind, run_get]
  show (start _ (c.compilation h source) >>= _ : Run String).run h = _
  rw [run_bind, run_start]
  cases h.execute (c.compilation h source) h.tree with
  | error fault => rfl
  | ok o =>
    dsimp only
    split <;> rfl

/-- **How collecting a value goes, stage by stage.** Each stage is
inverted once here, with the host it leaves; what is said of whole
collections goes by these cases. -/
theorem collected_collect {r : Except Failure (Option Value)}
    (hrun : (collect c t args).run h = (r, h')) : Host.Collected c t args h r h' := by
  rcases bind_cases hrun with ⟨_, h₁, hcheck, hrun⟩ | ⟨e, hcheck, rfl⟩
  case inr => exact .unchecked hcheck (prepared_of_checkFunctions hcheck)
  have hprepared := prepared_of_checkFunctions hcheck
  have hdir : h₁.workingDir = h.workingDir := by rw [hprepared.eq]
  rw [run_bind, run_buildSource, hdir] at hrun
  cases hfit : t.checkArgs args with
  | error e =>
    rw [Program.sourceOf_of_unfit hfit] at hrun
    cases hrun
    exact .unfit hcheck hfit hprepared
  | ok =>
    obtain ⟨text, htext⟩ := Program.sourceOf_of_fit h.workingDir c.sourceDir hfit
    rw [htext] at hrun
    rcases bind_cases hrun with ⟨source, h₂, hwrite, hrun⟩ | ⟨e, hwrite, rfl⟩
    case inr =>
      refine .unwritten hcheck hfit htext hwrite ?_
      cases writeSource_spec hwrite with
      | refused spares ways => exact hprepared.of_spares spares ways
    have hsourced : Host.Sourced c t args text source h h₂ := by
      refine ⟨⟨h₁, hcheck, hwrite⟩, hfit, htext, ?_⟩
      cases writeSource_spec hwrite with
      | done written => exact hprepared.of_written written
    have hcall : c.compilation h₂ source = c.compilation h source := by
      rw [Config.compilation, hsourced.prepared.eq]
      rfl
    have hexecute : h₂.execute = h.execute := by rw [hsourced.prepared.eq]
    have hcompile := run_compile c source h₂
    rw [hcall, hexecute] at hcompile
    rw [run_bind, hcompile] at hrun
    cases hcompiled : h.execute (c.compilation h source) h₂.tree with
    | error fault =>
      rw [hcompiled] at hrun
      cases hrun
      exact .notStarted hsourced hcompiled
    | ok o =>
      rw [hcompiled] at hrun
      dsimp only at hrun
      cases hsuccess : o.ending.success with
      | false =>
        rw [if_neg (by rw [hsuccess]; exact Bool.false_ne_true)] at hrun
        cases hrun
        exact .notCompiled hsourced hcompiled hsuccess
      | true =>
        rw [if_pos hsuccess] at hrun
        exact .ran hsourced hcompiled hsuccess hrun (executed_runProgram hrun)

/-- **Where collecting a value ends.** The first stage that fails gives
the result, and nothing of a later stage is done. If files are missing
that are not to be created, or if none is missing and the arguments do not
fit, the host is as it was. But stubs are written before the arguments are
looked at, and they stay if these are refused. -/
theorem collect_stages (c : Config) (t : Target) (args : RunArgs) (h : Host) :
    let r := ((collect c t args).run h).1
    let h' := ((collect c t args).run h).2
    Host.Collected c t args h r h' ∧
      (missingFiles c t h ≠ [] → c.autoCreateFiles = false → h' = h ∧ ∃ heads,
        r = .error (.error (.missingFiles ((missingFiles c t h).map FunctionFile.path) heads))) ∧
      (missingFiles c t h = [] → ∀ e, t.checkArgs args = .error e →
        h' = h ∧ r = .error (.error e)) := by
  refine ⟨collected_collect rfl, fun hmissing hauto => ?_, fun hmissing e hargs => ?_⟩
  · rw [collect, run_bind, run_checkFunctions, if_neg (by rwa [List.isEmpty_iff]), hauto,
      if_neg Bool.false_ne_true]
    exact ⟨rfl, _, rfl⟩
  · rw [collect, run_bind, run_checkFunctions, if_pos (by rwa [List.isEmpty_iff])]
    dsimp only
    rw [run_bind, run_buildSource, Program.sourceOf_of_unfit hargs]
    exact ⟨rfl, rfl⟩

/-- A missing file that is not to be created. -/
theorem collect_stages_missing :
    let f : Function := ⟨"f", .int, [], .external "f.cpp"⟩
    let t : Target := .generator (.call f [])
    let c : Config := { Config.standard with sourceDir := "/src" }
    let h : Host := ⟨[], "/", [], fun _ _ => .error .notFound, fun _ => none, 0, 0, [], [], [], []⟩
    c.autoCreateFiles = false ∧ missingFiles c t h ≠ [] ∧ ((collect c t []).run h).2 = h ∧
      ∃ heads, ((collect c t []).run h).1 = .error (.error (.missingFiles ["/src/f.cpp"] heads)) := by
  intro f t c h
  have hpaths : (missingFiles c t h).map FunctionFile.path = ["/src/f.cpp"] := by decide +kernel
  have hmissing : missingFiles c t h ≠ [] := by
    intro hnone
    rw [hnone] at hpaths
    cases hpaths
  obtain ⟨-, hunchecked, -⟩ := collect_stages c t [] h
  obtain ⟨hsame, heads, hr⟩ := hunchecked hmissing rfl
  exact ⟨rfl, hmissing, hsame, heads, hpaths ▸ hr⟩

/-- **A file that was there is lost** when stubs are created, though it is
where the path of no missing file led: with a step into a directory that
is not there and back, the path leads nowhere until the directory is made
for the stub, and then to the file. The compiler was not even started. -/
theorem existing_file_lost :
    let g : Function := ⟨"g", .int, [], .external "x/../a.cpp"⟩
    let t : Target := .generator (.call g [])
    let c : Config :=
      { Config.standard with buildDir := "/build", sourceDir := "/src", autoCreateFiles := true }
    let h : Host := ⟨FileTree.insert ["src", "a.cpp"] (.file (utf8Bytes "int f();"))
      (FileTree.insert ["src"] .directory []), "/", [], fun _ _ => .error .notFound,
      fun _ => none, 0, 0, [], [], [], []⟩
    let h' := ((collect c t []).run h).2
    c.debug = false ∧ h'.started = [] ∧
      h.tree.get? ["src", "a.cpp"] = some (.file (utf8Bytes "int f();")) ∧
      h'.tree.get? ["src", "a.cpp"]
        = some (.file (utf8Bytes "int g() \x7b\n  return \x7b\x7d;\n\x7d\n\n")) := by
  decide +kernel

end Run

end Specimen
