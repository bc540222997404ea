import Specimen.Proofs.PipeFiles

/-!
# What a program's run touches

The files that a run makes for a program are at the ends of two paths.
Nothing else is **touched** (`FileTree.Touches`): all other places have
what they had, and no directory comes or goes. As it takes nothing but
directories to tell where a path ends, paths end where they did, so what
is touched by one step after another is told by the paths alone.

The two pipes of a program are in one directory under names of their own
(`Channel.eq_of_endsAt`). So what is done to one of them leaves the other
as it is, wherever the program is (`FileTree.Touches.pipe?_eq`).
-/

namespace Specimen

namespace FileTree

/-- **A path ends at a place**, whether something is there or not. -/
def EndsAt (t : FileTree) (workingDir : Place) (path : String) (place : Place) : Prop :=
  ∃ l, t.locate workingDir path = .ok l ∧ l.place = place

/-- **Nothing is touched but the ends of some paths.** -/
structure Touches (workingDir : Place) (paths : List String) (t t' : FileTree) : Prop where
  /-- No directory comes or goes. -/
  dirs : ∀ place, t'.get? place = some .directory ↔ t.get? place = some .directory
  /-- Where none of the paths ends, everything is as it was. -/
  others : ∀ place, (∀ path ∈ paths, ¬t.EndsAt workingDir path place) →
    t'.get? place = t.get? place

variable {t t' t'' : FileTree} {workingDir : Place} {paths : List String} {path : String}

/-- What a path leads to is where it ends. -/
theorem endsAt_of_find {place : Place} {e : Entry}
    (h : t.find workingDir path = .ok (place, e)) : t.EndsAt workingDir path place := by
  obtain ⟨l, hlocate, hplace, -⟩ := find_eq_ok.mp h
  exact ⟨l, hlocate, hplace⟩

namespace Touches

theorem refl (workingDir : Place) (paths : List String) (t : FileTree) :
    Touches workingDir paths t t :=
  ⟨fun _ => Iff.rfl, fun _ _ => rfl⟩

theorem endsAt_iff (h : Touches workingDir paths t t') {start : Place} {other : String}
    {place : Place} : t'.EndsAt start other place ↔ t.EndsAt start other place := by
  constructor
  · rintro ⟨l, hlocate, hplace⟩
    exact ⟨l, locate_of_dirsIn (fun place => (h.dirs place).mp) hlocate, hplace⟩
  · rintro ⟨l, hlocate, hplace⟩
    exact ⟨l, locate_of_dirsIn (fun place => (h.dirs place).mpr) hlocate, hplace⟩

theorem trans (h : Touches workingDir paths t t') (h' : Touches workingDir paths t' t'') :
    Touches workingDir paths t t'' where
  dirs place := (h'.dirs place).trans (h.dirs place)
  others place hplace :=
    (h'.others place fun path hpath hends => hplace path hpath (h.endsAt_iff.mp hends)).trans
      (h.others place hplace)

theorem mono {more : List String} (h : Touches workingDir paths t t')
    (hmore : ∀ path ∈ paths, path ∈ more) : Touches workingDir more t t' :=
  ⟨h.dirs, fun place hplace => h.others place fun path hpath => hplace path (hmore path hpath)⟩

/-- **What a path leads to elsewhere stays.** -/
theorem find (h : Touches workingDir paths t t') {start place : Place} {other : String} {e : Entry}
    (hplace : ∀ path ∈ paths, ¬t.EndsAt workingDir path place)
    (hfind : t.find start other = .ok (place, e)) : t'.find start other = .ok (place, e) := by
  obtain ⟨l, hlocate, rfl, hget, hadmits⟩ := find_eq_ok.mp hfind
  exact find_eq_ok.mpr ⟨l, locate_of_dirsIn (fun place => (h.dirs place).mpr) hlocate, rfl,
    (h.others _ hplace).trans hget, hadmits⟩

/-- Something that is no directory is put where none was. -/
theorem insert {place : Place} {e : Entry} (hends : t.EndsAt workingDir path place)
    (hold : t.get? place ≠ some .directory) (hnew : e ≠ .directory) :
    Touches workingDir [path] t (t.insert place e) where
  dirs other := by
    by_cases hother : other = place
    · subst hother
      have hne : other ≠ [] := fun hroot => hold (hroot ▸ rfl)
      rw [get?_insert_self hne]
      exact ⟨fun h => absurd (Option.some.inj h) hnew, fun h => absurd h hold⟩
    · rw [get?_insert_of_ne hother]
  others other hother := by
    refine get?_insert_of_ne ?_ _ _
    rintro rfl
    exact hother path (List.mem_singleton_self _) hends

/-- Something that is no directory is removed. -/
theorem erase {place : Place} (hends : t.EndsAt workingDir path place)
    (hold : t.get? place ≠ some .directory) :
    Touches workingDir [path] t (t.erase place) where
  dirs other := by
    by_cases hother : other = place
    · subst hother
      have hne : other ≠ [] := fun hroot => hold (hroot ▸ rfl)
      rw [get?_erase_self hne]
      exact ⟨nofun, fun h => absurd h hold⟩
    · rw [get?_erase_of_ne hother]
  others other hother := by
    refine get?_erase_of_ne ?_ _
    rintro rfl
    exact hother path (List.mem_singleton_self _) hends

theorem remove (h : t.remove workingDir path = .ok t') : Touches workingDir [path] t t' := by
  obtain ⟨dir, name, e, hlocate, -, hget, he, rfl⟩ := remove_eq_ok.mp h
  exact erase ⟨_, hlocate, rfl⟩ fun hdir => he (Option.some.inj (hget.symm.trans hdir))

theorem makePipe (h : t.makePipe workingDir path = .ok t') : Touches workingDir [path] t t' := by
  obtain ⟨dir, name, hlocate, -, hnone, rfl⟩ := makePipe_eq_ok h
  refine insert ⟨_, hlocate, rfl⟩ ?_ nofun
  rw [hnone]
  nofun

/-- Changing a pipe touches the end of the path. -/
theorem changePipe (t : FileTree) (workingDir : Place) (path : String) (op : Pipe → Pipe) :
    Touches workingDir [path] t (t.changePipe workingDir path op) := by
  unfold FileTree.changePipe
  split
  next place p hfind =>
    obtain ⟨l, hlocate, rfl, hget, -⟩ := find_eq_ok.mp hfind
    refine insert ⟨l, hlocate, rfl⟩ ?_ nofun
    rw [hget]
    nofun
  next => exact refl workingDir [path] t

theorem openReader (h : t.openReader workingDir path = .ok t') :
    Touches workingDir [path] t t' := by
  obtain ⟨_, -, hrest⟩ := bind_eq_ok.mp h
  rw [← pure_eq_ok.mp hrest]
  exact changePipe ..

/-- Opening for writing touches the end of the path. -/
theorem openWriter (h : t.openWriter workingDir path = .ok t') :
    Touches workingDir [path] t t' := by
  obtain ⟨⟨place, e⟩, -, hrest⟩ := bind_eq_ok.mp h
  cases e with
  | directory => cases hrest
  | file | program =>
    rw [← pure_eq_ok.mp hrest]
    exact refl ..
  | pipe p =>
    dsimp only at hrest
    split at hrest
    next => cases hrest
    next =>
      rw [← pure_eq_ok.mp hrest]
      exact changePipe ..

end Touches

/-! ## Pipes -/

/-- **A pipe that was made is fresh.** -/
theorem pipe?_makePipe (h : t.makePipe workingDir path = .ok t') :
    t'.pipe? workingDir path = some .fresh := by
  have htouches := Touches.makePipe h
  obtain ⟨dir, name, hlocate, hname, -, rfl⟩ := makePipe_eq_ok h
  exact pipe?_eq_some.mpr ⟨dir ++ [name], find_eq_ok.mpr
    ⟨_, locate_of_dirsIn (fun place => (htouches.dirs place).mpr) hlocate, rfl,
      get?_insert_self (List.concat_ne_nil _ _) _ _, hname, nofun⟩⟩

/-- **A pipe that is changed** is what the change makes of it. -/
theorem pipe?_changePipe {p : Pipe} (hpipe : t.pipe? workingDir path = some p) (op : Pipe → Pipe) :
    (t.changePipe workingDir path op).pipe? workingDir path = some (op p) := by
  have htouches := Touches.changePipe t workingDir path op
  obtain ⟨place, hfind⟩ := pipe?_eq_some.mp hpipe
  rw [changePipe, hfind] at htouches ⊢
  obtain ⟨l, hlocate, rfl, hget, hadmits⟩ := find_eq_ok.mp hfind
  have hne : l.place ≠ [] := fun hroot => by
    rw [hroot] at hget
    cases hget
  refine pipe?_eq_some.mpr ⟨l.place, find_eq_ok.mpr
    ⟨l, locate_of_dirsIn (fun place => (htouches.dirs place).mpr) hlocate, rfl,
      get?_insert_self hne _ _, ?_⟩⟩
  cases l with
  | itself => trivial
  | named dir name slash => exact ⟨hadmits.1, fun hslash => nomatch hadmits.2 hslash⟩

/-- **A pipe that is opened has a reader more.** -/
theorem pipe?_openReader {p : Pipe} (hpipe : t.pipe? workingDir path = some p)
    (h : t.openReader workingDir path = .ok t') :
    t'.pipe? workingDir path = some p.openReader := by
  obtain ⟨_, -, hrest⟩ := bind_eq_ok.mp h
  rw [← pure_eq_ok.mp hrest]
  exact pipe?_changePipe hpipe _

end FileTree

/-- **The two pipes of a program end at different places.** -/
theorem Channel.eq_of_endsAt {t : FileTree} {workingDir place : Place} {exe : String}
    {c d : Channel} (hc : t.EndsAt workingDir (c.path exe) place)
    (hd : t.EndsAt workingDir (d.path exe) place) : c = d := by
  obtain ⟨l, hlocate, rfl⟩ := hc
  obtain ⟨l', hlocate', hplace⟩ := hd
  obtain ⟨dir, rfl⟩ := locate_path_eq hlocate
  obtain ⟨dir', rfl⟩ := locate_path_eq hlocate'
  have hname := List.append_inj_right' hplace rfl
  have hsuffix := (String.append_right_inj _).mp (List.singleton_inj.mp hname)
  cases c <;> cases d
  case report.report | output.output => rfl
  case report.output | output.report => exact absurd hsuffix (by decide)

/-- **What is done to one pipe of a program leaves the other as it is.**
Their paths end in different names, and so they end at different places
whatever directories lead there. -/
theorem FileTree.Touches.pipe?_eq {t t' : FileTree} {workingDir : Place} {exe : String}
    {c d : Channel} (h : Touches workingDir [c.path exe] t t') (hne : d ≠ c) :
    t'.pipe? workingDir (d.path exe) = t.pipe? workingDir (d.path exe) := by
  have helsewhere : ∀ {t₁ : FileTree} {place : Place}, t₁.EndsAt workingDir (d.path exe) place →
      ∀ path ∈ [c.path exe], ¬t₁.EndsAt workingDir path place := by
    intro t₁ place hends path hpath hother
    rw [List.mem_singleton.mp hpath] at hother
    exact hne (Channel.eq_of_endsAt hends hother)
  refine Option.ext fun p => ?_
  rw [FileTree.pipe?_eq_some, FileTree.pipe?_eq_some]
  refine exists_congr fun place => ⟨fun hfind => ?_, fun hfind => ?_⟩
  · have hback : Touches workingDir [c.path exe] t' t :=
      ⟨fun place => (h.dirs place).symm, fun place hplace => (h.others place fun path hpath hends =>
        hplace path hpath (h.endsAt_iff.mpr hends)).symm⟩
    exact hback.find (helsewhere (FileTree.endsAt_of_find hfind)) hfind
  · exact h.find (helsewhere (FileTree.endsAt_of_find hfind)) hfind

end Specimen
