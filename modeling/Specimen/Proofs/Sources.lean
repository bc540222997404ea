import Specimen.Proofs.Stubs
import Specimen.Run.Compilation

/-!
# Writing a source

The source of a program is put into the build directory. When debugging
it goes to the same file every time, whatever that file has; otherwise
it must not take the place of anything. So the file is made first, empty
and only where nothing is, with one number after the other tried, and it
is filled afterwards.

The main result is `Run.writeSource_spec`: either the source is where
its path leads, and all other places are spared (`Host.Written`), or the
system has refused something, and then all places are.
-/

namespace Specimen

/-- The build directory under its absolute path, if it has one. -/
def Config.buildDirs (c : Config) (h : Host) : List String :=
  (Path.absolute? h.workingDir c.buildDir).toList

/-- **A source was written** to the file that a path leads to. -/
structure Host.Written (c : Config) (text path : String) (h h' : Host) : Prop where
  /-- Nothing differs but the files and the number for the next
  source. -/
  eq : h' = { h with tree := h'.tree, nextSource := h'.nextSource }
  /-- What was there is kept. -/
  keeps : h.tree.Keeps h'.tree
  /-- Directories were made on the way to the build directory. -/
  ways : h.tree.WaysMade h.here (c.buildDirs h) h'.tree
  /-- The source is where the path leads, where nothing was unless
  debugging, and other places are spared. -/
  source : ∃ place, h'.tree.find h'.here path = .ok (place, .file (utf8Bytes text)) ∧
    (c.debug = false → h.tree.get? place = none) ∧
    ∀ other, other ≠ place → h.tree.Spares h'.tree other

/-- **How writing a source goes**: the result, and the host it is left
on. -/
inductive Host.Writing (c : Config) (text : String) (h : Host) :
    Except Failure String → Host → Prop where
  /-- The source was written. -/
  | done {path : String} {h' : Host} (written : Host.Written c text path h h') :
      Writing c text h (.ok path) h'
  /-- The system has refused something. -/
  | refused {t : FileTree} {n : Nat} {attempt : String} {fault : SystemFault}
      (spares : ∀ place, h.tree.Spares t place)
      (ways : h.tree.WaysMade h.here (c.buildDirs h) t) :
      Writing c text h (.error (.system attempt fault)) { h with tree := t, nextSource := n }

/-- Directories that are made before make no difference. -/
theorem Host.Writing.after {c : Config} {text : String} {h h₁ h' : Host}
    {r : Except Failure String} (hadds : h.Adds h₁)
    (hspares : ∀ place, h.tree.Spares h₁.tree place)
    (hways : h.tree.WaysMade h.here (c.buildDirs h) h₁.tree)
    (hwriting : Host.Writing c text h₁ r h') : Host.Writing c text h r h' := by
  obtain ⟨t, rfl⟩ : ∃ t, h₁ = { h with tree := t } := ⟨_, hadds.eq⟩
  cases hwriting with
  | done written =>
    obtain ⟨place, hfind, hfresh, hothers⟩ := written.source
    refine .done ⟨written.eq, hadds.keeps.trans written.keeps,
      hways.trans written.ways written.keeps, place, hfind, fun hdebug => ?_,
      fun other hother => (hspares other).trans (hothers other hother)⟩
    rcases hspares place with heq | ⟨hnone, -⟩
    · exact heq.symm.trans (hfresh hdebug)
    · exact hnone
  | refused spares ways =>
    exact .refused (fun place => (hspares place).trans (spares place))
      (hways.trans ways (.of_spares spares))

namespace Run

variable {h h' : Host} {r : Except Failure String}

/-- **Trying a number** makes an empty file where nothing is, if at all. -/
theorem trySource_spec {dir : String} {r : Except Failure (Option String)}
    (hrun : (trySource dir).run h = (r, h')) :
    (∃ path t, r = .ok (some path) ∧ h.tree.newFile h.here path = .ok t ∧
        h' = { h with tree := t, nextSource := h.nextSource + 1 }) ∨
      (r = .ok none ∨ ∃ attempt fault, r = .error (.system attempt fault)) ∧
        h' = { h with nextSource := h.nextSource + 1 } := by
  rw [trySource, run_bind, run_get] at hrun
  dsimp only at hrun
  split at hrun
  next t hmake =>
    cases hrun
    exact .inl ⟨_, t, rfl, hmake, rfl⟩
  next fault _ =>
    rw [run_bind, run_set] at hrun
    dsimp only at hrun
    split at hrun
    next =>
      cases hrun
      exact .inr ⟨.inl rfl, rfl⟩
    next =>
      cases hrun
      exact .inr ⟨.inr ⟨_, fault, rfl⟩, rfl⟩

/-- **Creating a source file** makes an empty one where nothing is, unless
the system refuses to. Numbers are used up either way, so a number that
was in the way once is not tried again. -/
theorem createSource_spec {dir : String} {fuel : Nat}
    (hrun : (createSource dir fuel).run h = (r, h')) :
    (∃ path t n, r = .ok path ∧ h.tree.newFile h.here path = .ok t ∧
        h' = { h with tree := t, nextSource := n }) ∨
      ∃ attempt fault n, r = .error (.system attempt fault) ∧ h' = { h with nextSource := n } := by
  induction fuel generalizing h with
  | zero =>
    cases hrun
    exact .inr ⟨_, _, _, rfl, rfl⟩
  | succ fuel ih =>
    rw [createSource] at hrun
    rcases bind_cases hrun with ⟨found, h₁, htry, hrest⟩ | ⟨e, htry, rfl⟩
    · rcases trySource_spec htry with ⟨path, t, hr, hmake, rfl⟩ | ⟨hr | ⟨_, _, hr⟩, rfl⟩
      · cases hr
        cases hrest
        exact .inl ⟨path, t, _, rfl, hmake, rfl⟩
      · -- the next number is tried, and nothing else is different
        cases hr
        exact (ih hrest :)
      · cases hr
    · rcases trySource_spec htry with ⟨path, t, hr, -⟩ | ⟨hr | ⟨attempt, fault, hr⟩, rfl⟩
      · cases hr
      · cases hr
      · cases hr
        exact .inr ⟨attempt, fault, _, rfl, rfl⟩

/-- The part that puts a source into its file. -/
def fill (text path : String) : Run String := do
  change ("write source: " ++ path) fun t here => t.putFile here path (utf8Bytes text)
  pure path

theorem run_fill (text path : String) (h : Host) :
    (fill text path).run h = match h.tree.putFile h.here path (utf8Bytes text) with
      | .ok t => (.ok path, { h with tree := t })
      | .error fault => (.error (.system ("write source: " ++ path) fault), h) := by
  rw [fill, run_bind, run_change]
  cases h.tree.putFile h.here path (utf8Bytes text) <;> rfl

/-- **When debugging**, a source goes wherever its path leads. -/
theorem fill_spec {c : Config} {text path : String} (hdebug : c.debug = true)
    (hrun : (fill text path).run h = (r, h')) : Host.Writing c text h r h' := by
  rw [run_fill] at hrun
  split at hrun
  next t hput =>
    cases hrun
    obtain ⟨place, hfind, hothers⟩ := FileTree.find_putFile hput
    refine .done ⟨rfl, .putFile hput, .putFile hput _ _, place, hfind, ?_, hothers⟩
    rw [hdebug]
    nofun
  next fault _ =>
    cases hrun
    exact .refused (.refl _) (.refl _ _ _)

/-- **Otherwise** it goes to a file that was just made for it. -/
theorem createSource_fill_spec (c : Config) {text dir : String} {fuel : Nat}
    (hrun : (createSource dir fuel >>= fill text).run h = (r, h')) :
    Host.Writing c text h r h' := by
  rcases bind_cases hrun with ⟨path, h₁, hcreate, hfill⟩ | ⟨e, hcreate, rfl⟩
  · rcases createSource_spec hcreate with ⟨_, t, n, hr, hmake, rfl⟩ | ⟨_, _, _, hr, -⟩
    · cases hr
      obtain ⟨t', place, hput, hnone, hfind, hothers⟩ :=
        FileTree.putFile_of_newFile (utf8Bytes text) hmake
      have hput' : FileTree.putFile (Host.tree { h with tree := t, nextSource := n })
          (Host.here { h with tree := t, nextSource := n }) path (utf8Bytes text) = .ok t' := hput
      rw [run_fill, hput'] at hfill
      cases hfill
      have hkeeps := FileTree.Keeps.putFile hput
      exact .done ⟨rfl, (FileTree.Keeps.newFile hmake).trans hkeeps,
        (FileTree.WaysMade.newFile hmake _ _).trans (.putFile hput _ _) hkeeps, place, hfind,
        fun _ => hnone, hothers⟩
    · cases hr
  · rcases createSource_spec hcreate with ⟨_, _, _, hr, -⟩ | ⟨attempt, fault, n, hr, rfl⟩
    · cases hr
    · cases hr
      exact .refused (.refl _) (.refl _ _ _)

/-- **Writing a source**: it is where its path leads then, unless the
system has refused something. When debugging, the path is the one that is
always used, and what was there is gone. -/
theorem writeSource_spec {c : Config} {text : String}
    (hrun : (writeSource c text).run h = (r, h')) : Host.Writing c text h r h' := by
  rw [writeSource, run_bind, run_get] at hrun
  dsimp only at hrun
  split at hrun
  next =>
    cases hrun
    exact .refused (.refl _) (.refl _ _ _)
  next buildDir hbuildDir =>
  have hdir : c.buildDirs h = [buildDir] := by
    rw [Config.buildDirs, hbuildDir]
    rfl
  rcases bind_cases hrun with ⟨_, h₁, hdirs, hrest⟩ | ⟨e, hdirs, rfl⟩
  · obtain ⟨hadds, hspares, hways, -⟩ := makeDirs_spec hdirs
    refine .after hadds hspares (hdir ▸ hways) ?_
    split at hrest
    next hdebug => exact fill_spec hdebug hrest
    next =>
      rw [run_bind, run_get] at hrest
      exact createSource_fill_spec c hrest
  · obtain ⟨hadds, hspares, hways, hr | ⟨attempt, fault, hr⟩⟩ := makeDirs_spec hdirs
    · cases hr
    · cases hr
      obtain ⟨t, rfl⟩ : ∃ t, h' = { h with tree := t } := ⟨_, hadds.eq⟩
      exact .refused hspares (hdir ▸ hways)

end Run

end Specimen
