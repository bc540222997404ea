import Specimen.Proofs.FilesKept

/-!
# The ways of paths

Making a directory makes those it is in, and no others. Which these are
can be told without a look at the files: from the place where a path
starts, each of its names leads up or down (`Place.next`), and what is
made is **on the way** of the path (`FileTree.OnWay`), at the end of
some of its first names.
-/

namespace Specimen

/-- Where a name leads from a place. -/
def Place.next (place : Place) (name : String) : Place :=
  if name == "." then place else if name == ".." then place.dropLast else place ++ [name]

namespace FileTree

/-- **A place on the way of a path**: the first names of the path lead
there, or all of them. -/
def OnWay (workingDir : Place) (path : String) (place : Place) : Prop :=
  ∃ names, names <+: Path.names path ∧
    names.foldl Place.next (if Path.isAbsolute path then [] else workingDir) = place

/-- **Directories were made on the ways of some paths only.** -/
def WaysMade (workingDir : Place) (paths : List String) (t t' : FileTree) : Prop :=
  ∀ place, t.get? place = none → t'.get? place = some .directory →
    ∃ path ∈ paths, OnWay workingDir path place

variable {t t' t'' : FileTree} {workingDir : Place} {path : String}

/-! ## Where names lead -/

/-- A name leads where it does in any tree. -/
theorem step_eq_ok {place last : Place} {name : String} (h : t.step place name = .ok last) :
    last = place.next name := by
  obtain ⟨_, -, h⟩ := bind_eq_ok.mp h
  unfold Place.next
  split at h
  next hdot =>
    rw [if_pos hdot]
    exact (pure_eq_ok.mp h).symm
  next hdot =>
    rw [if_neg hdot]
    split at h
    next hup =>
      rw [if_pos hup]
      exact (pure_eq_ok.mp h).symm
    next hup =>
      rw [if_neg hup]
      obtain ⟨_, -, h⟩ := bind_eq_ok.mp h
      exact (pure_eq_ok.mp h).symm

/-- Names lead where they do in any tree. -/
theorem foldlM_step_eq_ok {place last : Place} {names : List String}
    (h : names.foldlM t.step place = .ok last) : last = names.foldl Place.next place := by
  induction names generalizing place with
  | nil => exact (pure_eq_ok.mp h).symm
  | cons name names ih =>
    rw [List.foldlM_cons] at h
    obtain ⟨next, hnext, hrest⟩ := bind_eq_ok.mp h
    rw [List.foldl_cons, ← step_eq_ok hnext]
    exact ih hrest

/-- Names such as `.` may be left out. -/
theorem foldl_next_names (path : String) (place : Place) :
    (Path.names path).foldl Place.next place
      = ((Path.pieces path).filter (· != "")).foldl Place.next place := by
  have hnames : Path.names path = ((Path.pieces path).filter (· != "")).filter (· != ".") := by
    rw [List.filter_filter]
    exact List.filter_congr fun name _ => Bool.and_comm _ _
  rw [hnames, List.foldl_filter]
  congr 1
  funext place name
  by_cases hdot : name = "."
  · subst hdot
    rfl
  · rw [if_pos (bne_iff_ne.mpr hdot)]

/-- **The last name of a path is at the end of its way.** -/
theorem onWay_of_locate {dir : Place} {name : String} {slash : Bool}
    (h : t.locate workingDir path = .ok (.named dir name slash)) :
    OnWay workingDir path (dir ++ [name]) := by
  obtain ⟨_, -, hfollow⟩ := bind_eq_ok.mp h
  refine ⟨Path.names path, List.prefix_rfl, ?_⟩
  cases hlast : ((Path.pieces path).filter (· != "")).getLast? with
  | none =>
    simp only [follow, hlast] at hfollow
    cases hfollow
  | some last =>
    rw [follow_of_getLast? hlast] at hfollow
    obtain ⟨place, hplace, hrest⟩ := bind_eq_ok.mp hfollow
    obtain ⟨_, -, hrest⟩ := bind_eq_ok.mp hrest
    split at hrest
    next => cases hrest
    next hdot =>
      split at hrest
      next => cases hrest
      next hup =>
        cases hrest
        obtain ⟨front, hsplit⟩ := List.getLast?_eq_some_iff.mp hlast
        rw [hsplit, List.dropLast_concat] at hplace
        rw [foldl_next_names, hsplit, List.foldl_append, ← foldlM_step_eq_ok hplace]
        show Place.next dir name = _
        rw [Place.next, if_neg hdot, if_neg hup]

/-! ## Making directories -/

namespace WaysMade

theorem refl (workingDir : Place) (paths : List String) (t : FileTree) :
    WaysMade workingDir paths t t := by
  intro place hnone hdir
  rw [hnone] at hdir
  cases hdir

theorem trans {paths : List String} (h : WaysMade workingDir paths t t')
    (h' : WaysMade workingDir paths t' t'') (hkeeps : Keeps t' t'') :
    WaysMade workingDir paths t t'' := by
  intro place hnone hdir
  cases hplace : t'.get? place with
  | none => exact h' place hplace hdir
  | some e =>
    obtain ⟨e', he', rfl | ⟨-, hfile⟩⟩ := hkeeps place e hplace
    · rw [hdir] at he'
      cases he'
      exact h place hnone hplace
    · rw [hdir] at he'
      cases he'
      cases hfile

theorem mono {paths more : List String} (h : WaysMade workingDir paths t t')
    (hmore : paths ⊆ more) : WaysMade workingDir more t t' := by
  intro place hnone hdir
  obtain ⟨path, hpath, hway⟩ := h place hnone hdir
  exact ⟨path, hmore hpath, hway⟩

theorem insert {place : Place} (h : OnWay workingDir path place) (e : Entry) (t : FileTree) :
    WaysMade workingDir [path] t (t.insert place e) := by
  intro other hnone hdir
  by_cases hother : other = place
  · exact ⟨path, List.mem_singleton_self _, hother ▸ h⟩
  · rw [get?_insert_of_ne hother, hnone] at hdir
    cases hdir

/-- A file is no directory. -/
theorem insert_file (start : Place) (paths : List String) (place : Place) (bytes : List UInt8)
    (t : FileTree) : WaysMade start paths t (t.insert place (.file bytes)) := by
  intro other hnone hdir
  by_cases hother : other = place
  · subst hother
    have hne : other ≠ [] := by
      rintro rfl
      cases hnone
    rw [get?_insert_self hne] at hdir
    cases hdir
  · rw [get?_insert_of_ne hother, hnone] at hdir
    cases hdir

/-- Making the directories on a way of names. -/
theorem makeWay {place start : Place} {names : List String} (hnone : t.get? place = none)
    (hdir : (t.makeWay start names).2.get? place = some .directory) :
    ∃ first, first <+: names ∧ first.foldl Place.next start = place := by
  induction names generalizing start t with
  | nil =>
    rw [FileTree.makeWay, hnone] at hdir
    cases hdir
  | cons name names ih =>
    -- what is made behind the first name is on the way from there
    have hrest : ∀ {next : Place} {t' : FileTree}, t.step start name = .ok next →
        t'.get? place = none → (t'.makeWay next names).2.get? place = some .directory →
        ∃ first, first <+: name :: names ∧ first.foldl Place.next start = place := by
      intro next t' hstep hnone hdir
      obtain ⟨first, hfirst, hplace⟩ := ih hnone hdir
      refine ⟨name :: first, List.cons_prefix_cons.mpr ⟨rfl, hfirst⟩, ?_⟩
      rw [List.foldl_cons, ← step_eq_ok hstep]
      exact hplace
    rw [FileTree.makeWay] at hdir
    split at hdir
    next =>
      rw [hnone] at hdir
      cases hdir
    next next hstep =>
      split at hdir
      next => exact hrest hstep hnone hdir
      next =>
        rw [hnone] at hdir
        cases hdir
      next =>
        by_cases hplace : place = next
        · exact ⟨[name], List.cons_prefix_cons.mpr ⟨rfl, List.nil_prefix⟩,
            hplace ▸ (step_eq_ok hstep).symm⟩
        · exact hrest hstep ((get?_insert_of_ne hplace _ _).trans hnone) hdir

/-- Making a directory unless it is there. -/
theorem ensureDir (t : FileTree) (workingDir : Place) (path : String) :
    WaysMade workingDir [path] t (t.ensureDir workingDir path).2 := by
  unfold FileTree.ensureDir
  split
  next t' hmake =>
    obtain ⟨dir, name, slash, hlocate, -, rfl⟩ := makeDir_eq_ok hmake
    exact insert (onWay_of_locate hlocate) _ _
  next => exact refl _ _ _

/-- **Making a directory and those it is in** makes them on its way, and
nothing else. -/
theorem makeDirs (t : FileTree) (workingDir : Place) (path : String) :
    WaysMade workingDir [path] t (t.makeDirs workingDir path).2 := by
  unfold FileTree.makeDirs
  split
  next => exact refl _ _ _
  next =>
    split
    next =>
      have hway : WaysMade workingDir [path] t (t.makeWay
          (if Path.isAbsolute path then [] else workingDir) (Path.names path).dropLast).2 := by
        intro place hnone hdir
        obtain ⟨first, hfirst, hplace⟩ := makeWay hnone hdir
        exact ⟨path, List.mem_singleton_self _, first,
          hfirst.trans (List.dropLast_prefix _), hplace⟩
      dsimp only
      generalize FileTree.makeWay _ _ t = made at hway ⊢
      obtain ⟨result, t'⟩ := made
      cases result with
      | error => exact hway
      | ok => exact hway.trans (ensureDir t' _ _) (.of_spares (.ensureDir t' _ _))
    next => exact ensureDir _ _ _

theorem putFile {bytes : List UInt8} (h : t.putFile workingDir path bytes = .ok t')
    (start : Place) (paths : List String) : WaysMade start paths t t' := by
  obtain ⟨dir, name, -, -, -, rfl⟩ := putFile_eq_ok h
  exact insert_file _ _ _ _ _

theorem newFile (h : t.newFile workingDir path = .ok t') (start : Place) (paths : List String) :
    WaysMade start paths t t' := by
  obtain ⟨dir, name, -, -, -, rfl⟩ := newFile_eq_ok h
  exact insert_file _ _ _ _ _

end WaysMade

end FileTree

end Specimen
