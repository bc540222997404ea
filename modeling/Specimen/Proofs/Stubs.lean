import Specimen.Proofs.Running
import Specimen.Proofs.Ways
import Specimen.Run.Functions

/-!
# Creating stubs

Creating the file of a stub makes the directories on the way and writes
one file. Whatever else was there is kept (`Host.Adds`), so of many files
that are created one after another each is there in the end
(`Run.forM_createStubs`), unless the system refuses one of them.

There being a file is not all there is to know, for two paths may lead to
one place. What is there in the end was written last
(`Host.Stubbed`, `Run.forM_createStubs_stubbed`).
-/

namespace Specimen

/-- **Only files were added** to a host: it differs in its files, and what
was there is kept. -/
structure Host.Adds (h h' : Host) : Prop where
  /-- Nothing but the files differs. -/
  eq : h' = { h with tree := h'.tree }
  /-- What was there is kept. -/
  keeps : h.tree.Keeps h'.tree

namespace Host.Adds

variable {h h' h'' : Host}

theorem refl (h : Host) : Adds h h := ⟨rfl, .refl _⟩

theorem trans (hfirst : Adds h h') (hrest : Adds h' h'') : Adds h h'' :=
  ⟨by rw [hrest.eq, hfirst.eq], hfirst.keeps.trans hrest.keeps⟩

theorem of_keeps {t : FileTree} (hkeeps : h.tree.Keeps t) : Adds h { h with tree := t } :=
  ⟨rfl, hkeeps⟩

theorem here_eq (hadds : Adds h h') : h'.here = h.here := by
  rw [hadds.eq]
  rfl

theorem isFile (hadds : Adds h h') {path : String} (hfile : h.tree.isFile h.here path = true) :
    h'.tree.isFile h'.here path = true := by
  rw [hadds.here_eq]
  exact hadds.keeps.isFile hfile

end Host.Adds

/-- **Where a path leads** on a host. -/
def Host.LeadsTo (h : Host) (path : String) (place : Place) : Prop :=
  ∃ e, h.tree.find h.here path = .ok (place, e)

/-- A path leads to one place. -/
theorem Host.LeadsTo.eq {h : Host} {path : String} {place other : Place}
    (hplace : h.LeadsTo path place) (hother : h.LeadsTo path other) : place = other := by
  obtain ⟨e, he⟩ := hplace
  obtain ⟨e', he'⟩ := hother
  rw [he] at he'
  exact congrArg Prod.fst (Except.ok.inj he')

/-- **Stubs were written** for files, one file after another. -/
structure Host.Stubbed (s : Program) (files : List FunctionFile) (h h' : Host) : Prop where
  /-- Only files were added. -/
  adds : h.Adds h'
  /-- Each file is there. -/
  isFile : ∀ file ∈ files, h'.tree.isFile h'.here file.path = true
  /-- Where no path leads, nothing was written. -/
  spares : ∀ place, (∀ file ∈ files, ¬h'.LeadsTo file.path place) → h.tree.Spares h'.tree place
  /-- Where a path leads are the stubs of the last file whose path leads
  there. -/
  last : ∀ place, (∃ file ∈ files, h'.LeadsTo file.path place) →
    ∃ before file after, files = before ++ file :: after ∧ h'.LeadsTo file.path place ∧
      (∀ later ∈ after, ¬h'.LeadsTo later.path place) ∧
      h'.tree.get? place = some (.file (utf8Bytes (s.stubFile file)))

/-- **The directories that files are in.** -/
def FunctionFile.dirs (files : List FunctionFile) : List String :=
  files.flatMap fun file => (Path.parent? file.path).toList

/-- **How creating a file of stubs goes**: one place has the stubs then and
the others are spared, or the system has refused. -/
inductive Host.Creating (s : Program) (file : FunctionFile) (h : Host) :
    Except Failure Unit → Host → Prop where
  /-- The path leads to the stubs. -/
  | done {place : Place} {h' : Host} (adds : h.Adds h')
      (ways : h.tree.WaysMade h.here (Path.parent? file.path).toList h'.tree)
      (find : h'.tree.find h'.here file.path = .ok (place, .file (utf8Bytes (s.stubFile file))))
      (others : ∀ other, other ≠ place → h.tree.Spares h'.tree other) :
      Creating s file h (.ok ()) h'
  /-- The system has refused something. -/
  | refused {attempt : String} {fault : SystemFault} {h' : Host} (adds : h.Adds h')
      (ways : h.tree.WaysMade h.here (Path.parent? file.path).toList h'.tree)
      (spares : ∀ place, h.tree.Spares h'.tree place) :
      Creating s file h (.error (.system attempt fault)) h'

/-- Directories that are made before make no difference. -/
theorem Host.Creating.after {s : Program} {file : FunctionFile} {h h₁ h' : Host}
    {r : Except Failure Unit} (hadds : h.Adds h₁) (hspares : ∀ place, h.tree.Spares h₁.tree place)
    (hways : h.tree.WaysMade h.here (Path.parent? file.path).toList h₁.tree)
    (hcreating : Host.Creating s file h₁ r h') : Host.Creating s file h r h' := by
  have hhere := hadds.here_eq
  cases hcreating with
  | done adds ways find others =>
    rw [hhere] at ways
    exact .done (hadds.trans adds) (hways.trans ways adds.keeps) find fun other hother =>
      (hspares other).trans (others other hother)
  | refused adds ways spares =>
    rw [hhere] at ways
    exact .refused (hadds.trans adds) (hways.trans ways adds.keeps) fun place =>
      (hspares place).trans (spares place)

theorem get?_of_find {t : FileTree} {workingDir place : Place} {path : String} {e : Entry}
    (h : t.find workingDir path = .ok (place, e)) : t.get? place = some e := by
  obtain ⟨_, -, rfl, hget, -⟩ := FileTree.find_eq_ok.mp h
  exact hget

namespace Run

variable {h h' : Host} {r : Except Failure Unit}

/-- Making directories only adds, and succeeds unless the system has
refused. -/
theorem makeDirs_spec {path : String} (hrun : (makeDirs path).run h = (r, h')) :
    h.Adds h' ∧ (∀ place, h.tree.Spares h'.tree place) ∧
      h.tree.WaysMade h.here [path] h'.tree ∧
      (r = .ok () ∨ ∃ attempt fault, r = .error (.system attempt fault)) := by
  rw [run_makeDirs] at hrun
  have hspares := FileTree.Spares.makeDirs h.tree h.here path
  have hways := FileTree.WaysMade.makeDirs h.tree h.here path
  generalize h.tree.makeDirs h.here path = made at hrun hspares hways
  obtain ⟨result, t⟩ := made
  cases result with
  | ok =>
    cases hrun
    exact ⟨.of_keeps (.of_spares hspares), hspares, hways, .inl rfl⟩
  | error fault =>
    cases hrun
    exact ⟨.of_keeps (.of_spares hspares), hspares, hways, .inr ⟨_, fault, rfl⟩⟩

/-- Writing a file of stubs, once the directories are there. -/
theorem writeStubs_creating {s : Program} {file : FunctionFile}
    (hrun : (change ("write stub: " ++ file.path) fun t here =>
      t.putFile here file.path (utf8Bytes (s.stubFile file))).run h = (r, h')) :
    Host.Creating s file h r h' := by
  rw [run_change] at hrun
  split at hrun
  next t hput =>
    cases hrun
    obtain ⟨place, hfind, hothers⟩ := FileTree.find_putFile hput
    exact .done (.of_keeps (.putFile hput)) (.putFile hput _ _) hfind hothers
  next fault _ =>
    cases hrun
    exact .refused (.refl h) (.refl _ _ _) (.refl _)

/-- **Creating a file of stubs** makes the directories it is in and writes
it. -/
theorem createStubs_creating {s : Program} {file : FunctionFile}
    (hrun : (createStubs s file).run h = (r, h')) : Host.Creating s file h r h' := by
  unfold createStubs at hrun
  split at hrun
  next dir hdir =>
    have hdirs : (Path.parent? file.path).toList = [dir] := by rw [hdir]; rfl
    rcases bind_cases hrun with ⟨_, h₁, hmake, hrest⟩ | ⟨e, hmake, rfl⟩
    · obtain ⟨hadds, hspares, hways, -⟩ := makeDirs_spec hmake
      exact .after hadds hspares (hdirs ▸ hways) (writeStubs_creating hrest)
    · obtain ⟨hadds, hspares, hways, hr | ⟨attempt, fault, hr⟩⟩ := makeDirs_spec hmake
      · cases hr
      · cases hr
        exact .refused hadds (hdirs ▸ hways) hspares
  next => exact writeStubs_creating hrun

/-- **Creating a file of stubs** only adds. The path leads to the stubs
then, unless the system has refused. -/
theorem createStubs_spec {s : Program} {file : FunctionFile}
    (hrun : (createStubs s file).run h = (r, h')) :
    h.Adds h' ∧ ((r = .ok () ∧ ∃ place, h'.tree.find h'.here file.path
        = .ok (place, .file (utf8Bytes (s.stubFile file)))) ∨
      ∃ attempt fault, r = .error (.system attempt fault)) := by
  cases createStubs_creating hrun with
  | done adds _ find _ => exact ⟨adds, .inl ⟨rfl, _, find⟩⟩
  | refused adds _ _ => exact ⟨adds, .inr ⟨_, _, rfl⟩⟩

theorem stubbed_nil (s : Program) (hadds : h.Adds h')
    (hspares : ∀ place, h.tree.Spares h'.tree place) : Host.Stubbed s [] h h' where
  adds := hadds
  isFile := nofun
  spares place _ := hspares place
  last _ hleads := nomatch hleads

/-- Stubs written for one more file before others. -/
theorem stubbed_cons {s : Program} {file : FunctionFile} {files : List FunctionFile} {h₁ : Host}
    {place : Place} (hadds : h.Adds h₁)
    (hfind : h₁.tree.find h₁.here file.path = .ok (place, .file (utf8Bytes (s.stubFile file))))
    (hothers : ∀ other, other ≠ place → h.tree.Spares h₁.tree other)
    (hrest : Host.Stubbed s files h₁ h') : Host.Stubbed s (file :: files) h h' := by
  obtain ⟨e, hfind', he⟩ := hrest.adds.keeps.find hfind rfl
  rw [← hrest.adds.here_eq] at hfind'
  refine ⟨hadds.trans hrest.adds, List.forall_mem_cons.mpr
    ⟨FileTree.isFile_iff.mpr ⟨place, e, hfind', he⟩, hrest.isFile⟩, fun other hother => ?_,
    fun other hother => ?_⟩
  · obtain ⟨hfirst, hlater⟩ := List.forall_mem_cons.mp hother
    have hne : other ≠ place := fun heq => hfirst (heq ▸ ⟨e, hfind'⟩)
    exact (hothers other hne).trans (hrest.spares other hlater)
  · by_cases hlater : ∃ later ∈ files, h'.LeadsTo later.path other
    · obtain ⟨before, last, after, rfl, hlast⟩ := hrest.last other hlater
      exact ⟨file :: before, last, after, rfl, hlast⟩
    · have hnone : ∀ later ∈ files, ¬h'.LeadsTo later.path other := fun later hmem hleads =>
        hlater ⟨later, hmem, hleads⟩
      obtain ⟨first, hfirst, hleads⟩ := hother
      rcases List.mem_cons.mp hfirst with rfl | hmem
      · obtain rfl : other = place := hleads.eq ⟨e, hfind'⟩
        refine ⟨[], first, files, rfl, hleads, hnone, ?_⟩
        have hwritten := get?_of_find hfind
        rcases hrest.spares other hnone with heq | ⟨hnothing, -⟩
        · exact heq.trans hwritten
        · rw [hwritten] at hnothing
          cases hnothing
      · exact absurd hleads (hnone first hmem)

/-- **Creating files of stubs** one after another writes them, up to one
that the system refuses. Directories are made on the ways to them. A path
is followed anew for each file, so it may lead to what was made for one
before. -/
theorem forM_createStubs_stubbed {s : Program} {files : List FunctionFile}
    (hrun : (files.forM (createStubs s)).run h = (r, h')) :
    h.tree.WaysMade h.here (FunctionFile.dirs files) h'.tree ∧
    ∃ written rest, files = written ++ rest ∧ Host.Stubbed s written h h' ∧
      ((r = .ok () ∧ rest = []) ∨ ∃ attempt fault, r = .error (.system attempt fault)) := by
  induction files generalizing h with
  | nil =>
    cases hrun
    exact ⟨.refl _ _ _, [], [], rfl, stubbed_nil s (.refl _) (.refl _), .inl ⟨rfl, rfl⟩⟩
  | cons file files ih =>
    have hrun : (createStubs s file >>= fun _ => files.forM (createStubs s)).run h = (r, h') :=
      hrun
    rw [FunctionFile.dirs, List.flatMap_cons]
    rcases bind_cases hrun with ⟨_, h₁, hfile, hrest⟩ | ⟨e, hfile, rfl⟩
    · cases createStubs_creating hfile with
      | done adds way find others =>
        obtain ⟨ways, written, rest, rfl, hstubbed, hr⟩ := ih hrest
        rw [adds.here_eq] at ways
        exact ⟨(way.mono (List.subset_append_left _ _)).trans
            (ways.mono (List.subset_append_right _ _)) hstubbed.adds.keeps,
          file :: written, rest, rfl, stubbed_cons adds find others hstubbed, hr⟩
    · cases createStubs_creating hfile with
      | refused adds way spares =>
        exact ⟨way.mono (List.subset_append_left _ _), [], file :: files, rfl,
          stubbed_nil s adds spares, .inr ⟨_, _, rfl⟩⟩

/-- **Creating files of stubs** one after another only adds. Every file is
there then, unless the system has refused. -/
theorem forM_createStubs {s : Program} {files : List FunctionFile}
    (hrun : (files.forM (createStubs s)).run h = (r, h')) :
    h.Adds h' ∧ ((r = .ok () ∧ ∀ file ∈ files, h'.tree.isFile h'.here file.path = true) ∨
      ∃ attempt fault, r = .error (.system attempt fault)) := by
  obtain ⟨-, written, rest, rfl, hstubbed, ⟨hr, rfl⟩ | hrefused⟩ := forM_createStubs_stubbed hrun
  · rw [List.append_nil]
    exact ⟨hstubbed.adds, .inl ⟨hr, hstubbed.isFile⟩⟩
  · exact ⟨hstubbed.adds, .inr hrefused⟩

/-- **How looking for the files of functions goes.** -/
theorem run_checkFunctions (c : Config) (t : Target) (h : Host) :
    let missing := missingFiles c t h
    let s := Program.declared h.workingDir c.sourceDir t
    (checkFunctions c t).run h =
      if missing.isEmpty then (.ok (), h)
      else if c.autoCreateFiles then (missing.forM (createStubs s)).run h
      else (.error (.error (.missingFiles (missing.map FunctionFile.path)
        (missing.flatMap fun file => file.functions.map s.functionHead))), h) := by
  rw [checkFunctions, run_bind, run_get]
  dsimp only
  split
  · rfl
  · split <;> rfl

end Run

end Specimen
