import Specimen.FileTree.Change
import Specimen.Proofs.Outcome

/-!
# Files that are kept

Making directories and writing files adds to a file tree: whatever was a
directory is one, and whatever was a file is one, if maybe with other
bytes (`FileTree.Keeps`). Where a path leads depends on directories only
(`FileTree.locate_of_dirsIn`), so it leads to the same place afterwards,
and a file that was there once stays where its path leads
(`FileTree.Keeps.isFile`). Bytes differ only where something was written:
any other place is spared (`FileTree.Spares`), that is, as it was or a
directory that was made.

What a path leads to is told by two lemmas, `FileTree.find_eq_ok` for
looking and `FileTree.locate_of_dirsIn` for what changes; everything
about a single operation is said by one lemma on its success.
-/

namespace Specimen

/-- Whether an entry is a file. -/
def Entry.isFile : Entry → Bool
  | file _ => true
  | program => true
  | _ => false

namespace FileTree

variable {t t' : FileTree} {workingDir : Place} {path : String}

/-! ## Where paths lead -/

/-- The place of a location. -/
def Location.place : Location → Place
  | itself place => place
  | named dir name _ => dir ++ [name]

/-- Whether a path that leads to a location may end at an entry: a name
must not be too long, and a slash behind it asks for a directory. -/
def Location.Admits : Location → Entry → Prop
  | itself _, _ => True
  | named _ name slash, e => checkName name = .ok () ∧ (slash = true → e = .directory)

/-- **What is at a location**: the entry at its place, if the path may
end there. -/
theorem entryAt_eq_ok {l : Location} {place : Place} {e : Entry} :
    t.entryAt l = .ok (place, e) ↔ l.place = place ∧ t.get? place = some e ∧ l.Admits e := by
  cases l with
  | itself p =>
    rw [entryAt]
    show _ ↔ p = place ∧ _ ∧ True
    constructor
    · intro h
      cases hentry : t.get? p with
      | none => rw [hentry] at h; cases h
      | some e' => rw [hentry] at h; cases h; exact ⟨rfl, hentry, trivial⟩
    · rintro ⟨rfl, he, -⟩
      rw [he]
      rfl
  | named dir name slash =>
    rw [entryAt, entry?]
    show _ ↔ dir ++ [name] = place ∧ _ ∧ checkName name = .ok () ∧ _
    cases hname : checkName name with
    | error fault => exact ⟨nofun, fun h => nomatch h.2.2.1⟩
    | ok =>
      constructor
      · intro h
        cases hentry : t.get? (dir ++ [name]) with
        | none => rw [hentry] at h; cases h
        | some e' =>
          rw [hentry] at h
          cases e' with
          | directory => cases h; exact ⟨rfl, hentry, rfl, fun _ => rfl⟩
          | file | pipe | program =>
            cases slash with
            | true => cases h
            | false => cases h; exact ⟨rfl, hentry, rfl, nofun⟩
      · rintro ⟨rfl, he, -, hslash⟩
        rw [he]
        cases e with
        | directory => rfl
        | file | pipe | program =>
          cases slash with
          | true => cases hslash rfl
          | false => rfl

/-- **What a path leads to.** -/
theorem find_eq_ok {place : Place} {e : Entry} :
    t.find workingDir path = .ok (place, e) ↔ ∃ l, t.locate workingDir path = .ok l ∧
      l.place = place ∧ t.get? place = some e ∧ l.Admits e := by
  rw [find, bind_eq_ok]
  simp only [entryAt_eq_ok]

/-- A path leads to a file. -/
theorem isFile_iff : t.isFile workingDir path = true ↔
    ∃ place e, t.find workingDir path = .ok (place, e) ∧ e.isFile = true := by
  unfold isFile
  constructor
  · intro h
    split at h
    next place bytes hfind => exact ⟨place, .file bytes, hfind, rfl⟩
    next place hfind => exact ⟨place, .program, hfind, rfl⟩
    next => cases h
  · rintro ⟨place, e, hfind, he⟩
    rw [hfind]
    cases e with
    | file | program => rfl
    | directory | pipe => cases he

/-- A path leads to a pipe. -/
theorem pipe?_eq_some {p : Pipe} : t.pipe? workingDir path = some p ↔
    ∃ place, t.find workingDir path = .ok (place, .pipe p) := by
  unfold pipe?
  constructor
  · intro h
    split at h
    next place q hfind =>
      cases h
      exact ⟨place, hfind⟩
    next => cases h
  · rintro ⟨place, hfind⟩
    rw [hfind]

/-- A place that names can be followed from is a directory. -/
theorem checkDirectory_eq_ok {place : Place} :
    t.checkDirectory place = .ok () ↔ t.get? place = some .directory := by
  unfold checkDirectory
  split
  next h => exact ⟨fun _ => h, fun _ => rfl⟩
  next e hne h =>
    refine ⟨nofun, fun hdir => ?_⟩
    rw [h] at hdir
    exact absurd (Option.some.inj hdir) hne
  next h =>
    refine ⟨nofun, fun hdir => ?_⟩
    rw [h] at hdir
    cases hdir

/-- **The directories of a tree are directories** of another. -/
def DirsIn (t t' : FileTree) : Prop :=
  ∀ place, t.get? place = some .directory → t'.get? place = some .directory

section

variable (h : DirsIn t t')
include h

/-- A name leads on where it led. -/
theorem step_of_dirsIn {place next : Place} {name : String}
    (hstep : t.step place name = .ok next) : t'.step place name = .ok next := by
  obtain ⟨_, hdir, hrest⟩ := bind_eq_ok.mp hstep
  exact bind_eq_ok.mpr
    ⟨(), checkDirectory_eq_ok.mpr (h _ (checkDirectory_eq_ok.mp hdir)), hrest⟩

/-- Names lead on where they led. -/
theorem foldlM_step_of_dirsIn {place last : Place} {names : List String}
    (hsteps : names.foldlM t.step place = .ok last) :
    names.foldlM t'.step place = .ok last := by
  induction names generalizing place with
  | nil => exact hsteps
  | cons name names ih =>
    rw [List.foldlM_cons] at hsteps ⊢
    obtain ⟨next, hnext, hrest⟩ := bind_eq_ok.mp hsteps
    exact bind_eq_ok.mpr ⟨next, step_of_dirsIn h hnext, ih hrest⟩

omit h in
/-- A path leads to its last name from where its other names lead. -/
theorem follow_of_getLast? {last : String}
    (hlast : ((Path.pieces path).filter (· != "")).getLast? = some last) :
    t.follow workingDir path = (do
      let dir ← ((Path.pieces path).filter (· != "")).dropLast.foldlM (step t)
        (if Path.isAbsolute path then [] else workingDir)
      t.checkDirectory dir
      if last == "." then pure (.itself dir)
      else if last == ".." then pure (.itself dir.dropLast)
      else pure (.named dir last (Path.endsWithSlash path))) := by
  simp only [follow, hlast]

omit h in
/-- A path whose last name is no `.` and no `..` leads to that name in a
directory. -/
theorem locate_of_getLast? {last : String}
    (hlast : ((Path.pieces path).filter (· != "")).getLast? = some last) (hdot : last ≠ ".")
    (hup : last ≠ "..") {l : Location} (hl : t.locate workingDir path = .ok l) :
    ∃ dir, l = .named dir last (Path.endsWithSlash path) := by
  obtain ⟨_, -, hfollow⟩ := bind_eq_ok.mp hl
  rw [follow_of_getLast? hlast] at hfollow
  obtain ⟨dir, -, hrest⟩ := bind_eq_ok.mp hfollow
  obtain ⟨_, -, hrest⟩ := bind_eq_ok.mp hrest
  rw [beq_eq_false_iff_ne.mpr hdot, beq_eq_false_iff_ne.mpr hup] at hrest
  exact ⟨dir, (pure_eq_ok.mp hrest).symm⟩

/-- **A path leads where it led** as long as directories stay. Paths that
led nowhere may lead somewhere then, which is how a stub can come to stand
where another file is. -/
theorem locate_of_dirsIn {l : Location} (hl : t.locate workingDir path = .ok l) :
    t'.locate workingDir path = .ok l := by
  obtain ⟨_, hpath, hfollow⟩ := bind_eq_ok.mp hl
  refine bind_eq_ok.mpr ⟨(), hpath, ?_⟩
  cases hlast : ((Path.pieces path).filter (· != "")).getLast? with
  | none =>
    simp only [follow, hlast] at hfollow ⊢
    exact hfollow
  | some last =>
    rw [follow_of_getLast? hlast] at hfollow ⊢
    obtain ⟨dir, hdir, hrest⟩ := bind_eq_ok.mp hfollow
    obtain ⟨_, hcheck, hrest⟩ := bind_eq_ok.mp hrest
    exact bind_eq_ok.mpr ⟨dir, foldlM_step_of_dirsIn h hdir, bind_eq_ok.mpr
      ⟨(), checkDirectory_eq_ok.mpr (h _ (checkDirectory_eq_ok.mp hcheck)), hrest⟩⟩

end

/-! ## What a change does -/

/-- **Making a directory** puts it at the last name of the path, where
nothing is. -/
theorem makeDir_eq_ok (h : t.makeDir workingDir path = .ok t') :
    ∃ dir name slash, t.locate workingDir path = .ok (.named dir name slash) ∧
      t.get? (dir ++ [name]) = none ∧ t' = t.insert (dir ++ [name]) .directory := by
  obtain ⟨l, hlocate, hl⟩ := bind_eq_ok.mp h
  cases l with
  | itself => cases hl
  | named dir name slash =>
    obtain ⟨e, he, hrest⟩ := bind_eq_ok.mp hl
    obtain ⟨_, -, hentry⟩ := bind_eq_ok.mp he
    cases e with
    | some e => cases hrest
    | none => exact ⟨dir, name, slash, hlocate, pure_eq_ok.mp hentry, (pure_eq_ok.mp hrest).symm⟩

/-- **Writing a file** puts it at the last name of the path, where
nothing is or a file. -/
theorem putFile_eq_ok {bytes : List UInt8} (h : t.putFile workingDir path bytes = .ok t') :
    ∃ dir name, t.locate workingDir path = .ok (.named dir name false) ∧
      checkName name = .ok () ∧ (∀ e, t.get? (dir ++ [name]) = some e → e.isFile = true) ∧
      t' = t.insert (dir ++ [name]) (.file bytes) := by
  obtain ⟨l, hlocate, hl⟩ := bind_eq_ok.mp h
  cases l with
  | itself => cases hl
  | named dir name slash =>
    cases slash with
    | true => cases hl
    | false =>
      obtain ⟨e, he, hrest⟩ := bind_eq_ok.mp hl
      obtain ⟨_, hname, hentry⟩ := bind_eq_ok.mp he
      refine ⟨dir, name, hlocate, hname, ?_⟩
      cases pure_eq_ok.mp hentry
      cases hget : t.get? (dir ++ [name]) with
      | none =>
        rw [hget] at hrest
        exact ⟨nofun, (pure_eq_ok.mp hrest).symm⟩
      | some e =>
        rw [hget] at hrest
        cases e with
        | directory | pipe => cases hrest
        | file | program =>
          exact ⟨fun e he => Option.some.inj he ▸ rfl, (pure_eq_ok.mp hrest).symm⟩

/-- **Making an empty file** puts it at the last name of the path, where
nothing is. -/
theorem newFile_eq_ok (h : t.newFile workingDir path = .ok t') :
    ∃ dir name, t.locate workingDir path = .ok (.named dir name false) ∧
      checkName name = .ok () ∧ t.get? (dir ++ [name]) = none ∧
      t' = t.insert (dir ++ [name]) (.file []) := by
  obtain ⟨l, hlocate, hl⟩ := bind_eq_ok.mp h
  cases l with
  | itself => cases hl
  | named dir name slash =>
    cases slash with
    | true => cases hl
    | false =>
      obtain ⟨e, he, hrest⟩ := bind_eq_ok.mp hl
      obtain ⟨_, hname, hentry⟩ := bind_eq_ok.mp he
      cases e with
      | some e => cases hrest
      | none =>
        exact ⟨dir, name, hlocate, hname, pure_eq_ok.mp hentry, (pure_eq_ok.mp hrest).symm⟩

/-! ## What is kept -/

/-- **A tree that is kept by another**: every entry is still there, but
that files may have other bytes. -/
def Keeps (t t' : FileTree) : Prop :=
  ∀ place e, t.get? place = some e →
    ∃ e', t'.get? place = some e' ∧ (e' = e ∨ e.isFile = true ∧ e'.isFile = true)

namespace Keeps

theorem refl (t : FileTree) : Keeps t t := fun _ e he => ⟨e, he, .inl rfl⟩

theorem trans {t'' : FileTree} (h : Keeps t t') (h' : Keeps t' t'') : Keeps t t'' := by
  intro place e he
  obtain ⟨e', he', hkind⟩ := h place e he
  obtain ⟨e'', he'', hkind'⟩ := h' place e' he'
  refine ⟨e'', he'', ?_⟩
  rcases hkind with rfl | ⟨hfile, hfile'⟩
  · exact hkind'
  · rcases hkind' with rfl | ⟨-, hfile''⟩
    · exact .inr ⟨hfile, hfile'⟩
    · exact .inr ⟨hfile, hfile''⟩

theorem dirsIn (h : Keeps t t') : DirsIn t t' := by
  intro place hplace
  obtain ⟨e, he, rfl | ⟨hfile, -⟩⟩ := h place _ hplace
  · exact he
  · cases hfile

/-- **A path that led to a file leads to one at the same place.** -/
theorem find (h : Keeps t t') {place : Place} {e : Entry}
    (hfind : t.find workingDir path = .ok (place, e)) (he : e.isFile = true) :
    ∃ e', t'.find workingDir path = .ok (place, e') ∧ e'.isFile = true := by
  obtain ⟨l, hlocate, rfl, hget, hadmits⟩ := find_eq_ok.mp hfind
  obtain ⟨e', hget', hkind⟩ := h _ e hget
  have he' : e'.isFile = true := by
    rcases hkind with rfl | ⟨-, he'⟩
    · exact he
    · exact he'
  refine ⟨e', find_eq_ok.mpr ⟨l, locate_of_dirsIn h.dirsIn hlocate, rfl, hget', ?_⟩, he'⟩
  cases l with
  | itself => trivial
  | named dir name slash =>
    refine ⟨hadmits.1, fun hslash => ?_⟩
    rw [hadmits.2 hslash] at he
    cases he

theorem isFile (h : Keeps t t') (hfile : t.isFile workingDir path = true) :
    t'.isFile workingDir path = true := by
  obtain ⟨place, e, hfind, he⟩ := isFile_iff.mp hfile
  obtain ⟨e', hfind', he'⟩ := h.find hfind he
  exact isFile_iff.mpr ⟨place, e', hfind', he'⟩

/-- Something put where nothing is, or a file put where one is, keeps the
rest. -/
theorem insert {place : Place} {e : Entry}
    (h : ∀ e', t.get? place = some e' → e'.isFile = true ∧ e.isFile = true) :
    Keeps t (t.insert place e) := by
  intro other e' he'
  by_cases hplace : other = place
  · subst hplace
    obtain ⟨hfile', hfile⟩ := h e' he'
    have hne : other ≠ [] := by
      rintro rfl
      cases he'
      cases hfile'
    exact ⟨e, get?_insert_self hne e t, .inr ⟨hfile', hfile⟩⟩
  · exact ⟨e', (get?_insert_of_ne hplace e t).trans he', .inl rfl⟩

theorem insert_of_none {place : Place} (h : t.get? place = none) (e : Entry) :
    Keeps t (t.insert place e) :=
  insert fun e' he' => by rw [h] at he'; cases he'

theorem putFile {bytes : List UInt8} (h : t.putFile workingDir path bytes = .ok t') :
    Keeps t t' := by
  obtain ⟨dir, name, -, -, hfile, rfl⟩ := putFile_eq_ok h
  exact insert fun e he => ⟨hfile e he, rfl⟩

theorem newFile (h : t.newFile workingDir path = .ok t') : Keeps t t' := by
  obtain ⟨dir, name, -, -, hnone, rfl⟩ := newFile_eq_ok h
  exact insert_of_none hnone _

end Keeps

/-! ## What is spared -/

/-- **A place is spared**: what was there still is, or nothing was and it
is a directory now. -/
def Spares (t t' : FileTree) (place : Place) : Prop :=
  t'.get? place = t.get? place ∨ (t.get? place = none ∧ t'.get? place = some .directory)

namespace Spares

variable {place : Place}

theorem refl (t : FileTree) (place : Place) : Spares t t place := .inl rfl

theorem trans {t'' : FileTree} (h : Spares t t' place) (h' : Spares t' t'' place) :
    Spares t t'' place := by
  rcases h with heq | ⟨hnone, hdir⟩
  · rcases h' with heq' | ⟨hnone', hdir'⟩
    · exact .inl (heq'.trans heq)
    · exact .inr ⟨heq ▸ hnone', hdir'⟩
  · rcases h' with heq' | ⟨hnone', -⟩
    · exact .inr ⟨hnone, heq'.trans hdir⟩
    · rw [hdir] at hnone'
      cases hnone'

theorem insert_of_ne {other : Place} (h : place ≠ other) (e : Entry) (t : FileTree) :
    Spares t (t.insert other e) place :=
  .inl (get?_insert_of_ne h e t)

/-- A directory that is made spares all places. -/
theorem insert_directory {other : Place} (h : t.get? other = none) (place : Place) :
    Spares t (t.insert other .directory) place := by
  by_cases hplace : place = other
  · subst hplace
    have hne : place ≠ [] := by
      rintro rfl
      cases h
    exact .inr ⟨h, get?_insert_self hne _ _⟩
  · exact insert_of_ne hplace _ _

/-- Making the directories on a way spares all places. -/
theorem makeWay (names : List String) (start : Place) (t : FileTree) (place : Place) :
    Spares t (t.makeWay start names).2 place := by
  induction names generalizing start t with
  | nil => exact refl t place
  | cons name names ih =>
    rw [FileTree.makeWay]
    split
    next => exact refl t place
    next next _ =>
      split
      next => exact ih next t
      next => exact refl t place
      next hnext => exact (insert_directory hnext place).trans (ih next _)

/-- Making a directory unless it is there spares all places. -/
theorem ensureDir (t : FileTree) (workingDir : Place) (path : String) (place : Place) :
    Spares t (t.ensureDir workingDir path).2 place := by
  unfold FileTree.ensureDir
  split
  next t' hmake =>
    obtain ⟨_, _, _, -, hnone, rfl⟩ := makeDir_eq_ok hmake
    exact insert_directory hnone place
  next => exact refl t place

/-- **Making a directory and those it is in** spares all places. -/
theorem makeDirs (t : FileTree) (workingDir : Place) (path : String) (place : Place) :
    Spares t (t.makeDirs workingDir path).2 place := by
  unfold FileTree.makeDirs
  split
  next => exact refl t place
  next =>
    split
    next =>
      have hway := makeWay (Path.names path).dropLast
        (if Path.isAbsolute path then [] else workingDir) t place
      dsimp only
      generalize FileTree.makeWay _ _ t = made at hway ⊢
      obtain ⟨result, t'⟩ := made
      cases result with
      | error => exact hway
      | ok => exact hway.trans (ensureDir t' workingDir path place)
    next => exact ensureDir t workingDir path place

end Spares

/-- **A tree all of whose places are spared is kept.** -/
theorem Keeps.of_spares (h : ∀ place, Spares t t' place) : Keeps t t' := by
  intro place e he
  rcases h place with heq | ⟨hnone, -⟩
  · exact ⟨e, heq.trans he, .inl rfl⟩
  · rw [hnone] at he
    cases he

/-- **What was written is at the end of the path**, and other places are
spared. -/
theorem find_putFile {bytes : List UInt8} (h : t.putFile workingDir path bytes = .ok t') :
    ∃ place, t'.find workingDir path = .ok (place, .file bytes) ∧
      ∀ other, other ≠ place → Spares t t' other := by
  have hdirs := (Keeps.putFile h).dirsIn
  obtain ⟨dir, name, hlocate, hname, -, rfl⟩ := putFile_eq_ok h
  exact ⟨dir ++ [name], find_eq_ok.mpr ⟨_, locate_of_dirsIn hdirs hlocate, rfl,
    get?_insert_self (List.concat_ne_nil _ _) _ _, hname, nofun⟩,
    fun _ hother => .insert_of_ne hother _ _⟩

/-- **A new file is empty and at the end of its path**, where nothing
was. -/
theorem find_newFile (h : t.newFile workingDir path = .ok t') :
    ∃ place, t.get? place = none ∧ t' = t.insert place (.file []) ∧
      t'.find workingDir path = .ok (place, .file []) := by
  have hdirs := (Keeps.newFile h).dirsIn
  obtain ⟨dir, name, hlocate, hname, hnone, rfl⟩ := newFile_eq_ok h
  exact ⟨dir ++ [name], hnone, rfl, find_eq_ok.mpr ⟨_, locate_of_dirsIn hdirs hlocate, rfl,
    get?_insert_self (List.concat_ne_nil _ _) _ _, hname, nofun⟩⟩

/-- **A file that was just made is written**, and what was there before is
kept. Nothing was at its place, so the bytes that it is given are put over
no others. -/
theorem putFile_of_newFile (bytes : List UInt8) (h : t.newFile workingDir path = .ok t') :
    ∃ t'' place, t'.putFile workingDir path bytes = .ok t'' ∧ t.get? place = none ∧
      t''.find workingDir path = .ok (place, .file bytes) ∧
      ∀ other, other ≠ place → Spares t t'' other := by
  have hdirs := (Keeps.newFile h).dirsIn
  obtain ⟨dir, name, hlocate, hname, hnone, rfl⟩ := newFile_eq_ok h
  have hlocate' := locate_of_dirsIn hdirs hlocate
  have hmade := get?_insert_self (List.concat_ne_nil name dir) (.file []) t
  have hput : (t.insert (dir ++ [name]) (.file [])).putFile workingDir path bytes
      = .ok ((t.insert (dir ++ [name]) (.file [])).insert (dir ++ [name]) (.file bytes)) := by
    refine bind_eq_ok.mpr ⟨_, hlocate', bind_eq_ok.mpr
      ⟨some (.file []), bind_eq_ok.mpr ⟨(), hname, pure_eq_ok.mpr hmade⟩, rfl⟩⟩
  refine ⟨_, dir ++ [name], hput, hnone, ?_, fun other hother => ?_⟩
  · exact find_eq_ok.mpr ⟨_, locate_of_dirsIn (Keeps.putFile hput).dirsIn hlocate', rfl,
      get?_insert_self (List.concat_ne_nil _ _) _ _, hname, nofun⟩
  · exact (Spares.insert_of_ne hother _ _).trans (.insert_of_ne hother _ _)

end FileTree

end Specimen
