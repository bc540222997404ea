import Specimen.Proofs.FilesKept
import Specimen.Proofs.Pieces
import Specimen.Run.Execution

/-!
# The files of pipes

The pipes of a program are files that are made for it and removed behind
it. Removing one cannot fail, whatever the program has done to its
surroundings: the path of a pipe ends in a name, with no slash and no
dots for it (`Channel.locate_path_eq`), so if it leads to a pipe at all,
the pipe can be removed (`FileTree.remove_eq_ok`).

What is made and removed is told apart from the rest by two questions,
which directories stay and which pipes are new (`FileTree.Tidy`). Pipes
that are opened, and files that are removed, are no trouble for either.
-/

namespace Specimen

namespace FileTree

variable {t t' t'' : FileTree} {workingDir : Place} {path : String}

/-! ## What a change does -/

/-- **Removing** takes away what is at the last name of the path, and no
directory. -/
theorem remove_eq_ok : t.remove workingDir path = .ok t' ↔
    ∃ dir name e, t.locate workingDir path = .ok (.named dir name false) ∧
      checkName name = .ok () ∧ t.get? (dir ++ [name]) = some e ∧ e ≠ .directory ∧
      t' = t.erase (dir ++ [name]) := by
  rw [remove, bind_eq_ok]
  constructor
  · rintro ⟨l, hlocate, hl⟩
    cases l with
    | itself => cases hl
    | named dir name slash =>
      obtain ⟨entry, hentry, hrest⟩ := bind_eq_ok.mp hl
      obtain ⟨_, hname, hget⟩ := bind_eq_ok.mp hentry
      cases pure_eq_ok.mp hget
      cases hget : t.get? (dir ++ [name]) with
      | none => rw [hget] at hrest; cases hrest
      | some e =>
        rw [hget] at hrest
        cases e with
        | directory => cases hrest
        | file | pipe | program =>
          cases slash with
          | true => cases hrest
          | false =>
            exact ⟨dir, name, _, hlocate, hname, hget, nofun, (pure_eq_ok.mp hrest).symm⟩
  · rintro ⟨dir, name, e, hlocate, hname, hget, he, rfl⟩
    refine ⟨_, hlocate, bind_eq_ok.mpr
      ⟨some e, bind_eq_ok.mpr ⟨(), hname, congrArg Except.ok hget⟩, ?_⟩⟩
    cases e with
    | directory => exact absurd rfl he
    | file | pipe | program => rfl

/-- **Making a pipe** puts one at the last name of the path, where nothing
is. -/
theorem makePipe_eq_ok (h : t.makePipe workingDir path = .ok t') :
    ∃ dir name, t.locate workingDir path = .ok (.named dir name false) ∧
      checkName name = .ok () ∧ t.get? (dir ++ [name]) = none ∧
      t' = t.insert (dir ++ [name]) (.pipe .fresh) := by
  obtain ⟨l, hlocate, hl⟩ := bind_eq_ok.mp h
  cases l with
  | itself => cases hl
  | named dir name slash =>
    obtain ⟨entry, hentry, hrest⟩ := bind_eq_ok.mp hl
    obtain ⟨_, hname, hget⟩ := bind_eq_ok.mp hentry
    cases pure_eq_ok.mp hget
    cases hget : t.get? (dir ++ [name]) with
    | some e => rw [hget] at hrest; cases hrest
    | none =>
      rw [hget] at hrest
      cases slash with
      | true => cases hrest
      | false => exact ⟨dir, name, hlocate, hname, hget, (pure_eq_ok.mp hrest).symm⟩

/-- Changing a pipe changes nothing, or puts a pipe where one is. -/
theorem changePipe_cases (t : FileTree) (workingDir : Place) (path : String) (op : Pipe → Pipe) :
    t.changePipe workingDir path op = t ∨ ∃ place p, t.get? place = some (.pipe p) ∧
      t.changePipe workingDir path op = t.insert place (.pipe (op p)) := by
  unfold changePipe
  split
  next place p hfind =>
    obtain ⟨l, -, rfl, hget, -⟩ := find_eq_ok.mp hfind
    exact .inr ⟨l.place, p, hget, rfl⟩
  next => exact .inl rfl

/-! ## Trees with less in them -/

/-- **What is in a tree is in another as well.** -/
def Within (t t' : FileTree) : Prop := ∀ place e, t.get? place = some e → t'.get? place = some e

theorem Within.refl (t : FileTree) : Within t t := fun _ _ h => h

/-- What is left when something is removed was there. -/
theorem Within.erase (t : FileTree) (place : Place) : Within (t.erase place) t := by
  intro other e he
  by_cases hplace : other = place
  · subst hplace
    by_cases hroot : other = []
    · subst hroot
      exact he
    · rw [get?_erase_self hroot] at he
      cases he
  · rwa [get?_erase_of_ne hplace] at he

theorem Within.insert {place : Place} (h : t.get? place = none) (e : Entry) :
    Within t (t.insert place e) := by
  intro other e' he'
  rwa [get?_insert_of_ne]
  rintro rfl
  rw [h] at he'
  cases he'

/-- **A path leads to what it leads to with less in the tree.** -/
theorem Within.find (h : Within t t') {place : Place} {e : Entry}
    (hfind : t.find workingDir path = .ok (place, e)) :
    t'.find workingDir path = .ok (place, e) := by
  obtain ⟨l, hlocate, hplace, hget, hadmits⟩ := find_eq_ok.mp hfind
  exact find_eq_ok.mpr ⟨l, locate_of_dirsIn (fun place => h place _) hlocate, hplace,
    h place e hget, hadmits⟩

theorem Within.isFile (h : Within t t') (hfile : t.isFile workingDir path = true) :
    t'.isFile workingDir path = true := by
  obtain ⟨place, e, hfind, he⟩ := isFile_iff.mp hfile
  exact isFile_iff.mpr ⟨place, e, h.find hfind, he⟩

/-- A path that leads to no pipe leads to none with less in the tree. -/
theorem Within.pipe?_eq_none (h : Within t t') (hnone : t'.pipe? workingDir path = none) :
    t.pipe? workingDir path = none := by
  refine Option.eq_none_iff_forall_ne_some.mpr fun p hp => ?_
  obtain ⟨place, hfind⟩ := pipe?_eq_some.mp hp
  rw [pipe?_eq_some.mpr ⟨place, h.find hfind⟩] at hnone
  cases hnone

/-! ## Trees without more pipes -/

/-- **A tree from which another came tidily**: its directories are still
there, and pipes are where pipes were. -/
structure Tidy (t t' : FileTree) : Prop where
  /-- Directories stay. -/
  dirs : DirsIn t t'
  /-- No pipe is new. -/
  pipes : ∀ place p, t'.get? place = some (.pipe p) → ∃ q, t.get? place = some (.pipe q)

namespace Tidy

theorem refl (t : FileTree) : Tidy t t := ⟨fun _ h => h, fun _ p h => ⟨p, h⟩⟩

theorem trans (h : Tidy t t') (h' : Tidy t' t'') : Tidy t t'' :=
  ⟨fun place hdir => h'.dirs place (h.dirs place hdir), fun place p hp => by
    obtain ⟨q, hq⟩ := h'.pipes place p hp
    exact h.pipes place q hq⟩

theorem erase {place : Place} (h : t.get? place ≠ some .directory) : Tidy t (t.erase place) := by
  refine ⟨fun other hdir => ?_, fun other p hp => ⟨p, Within.erase t place other _ hp⟩⟩
  rwa [get?_erase_of_ne]
  rintro rfl
  exact h hdir

theorem remove (h : t.remove workingDir path = .ok t') : Tidy t t' := by
  obtain ⟨dir, name, e, -, -, hget, he, rfl⟩ := remove_eq_ok.mp h
  exact erase fun hdir => he (Option.some.inj (hget.symm.trans hdir))

/-- Changing a pipe is tidy. -/
theorem changePipe (t : FileTree) (workingDir : Place) (path : String) (op : Pipe → Pipe) :
    Tidy t (t.changePipe workingDir path op) := by
  rcases changePipe_cases t workingDir path op with h | ⟨place, p, hget, h⟩
  · rw [h]
    exact refl t
  · rw [h]
    refine ⟨fun other hdir => ?_, fun other q hq => ?_⟩
    · rwa [get?_insert_of_ne]
      rintro rfl
      rw [hget] at hdir
      cases hdir
    · by_cases hplace : other = place
      · exact ⟨p, hplace ▸ hget⟩
      · exact ⟨q, by rwa [get?_insert_of_ne hplace] at hq⟩

theorem openReader (h : t.openReader workingDir path = .ok t') : Tidy t t' := by
  obtain ⟨_, -, hrest⟩ := bind_eq_ok.mp h
  rw [← pure_eq_ok.mp hrest]
  exact changePipe ..

/-- Opening a pipe for writing is tidy. -/
theorem openWriter (h : t.openWriter workingDir path = .ok t') : Tidy t t' := by
  obtain ⟨⟨place, e⟩, -, hrest⟩ := bind_eq_ok.mp h
  cases e with
  | directory => cases hrest
  | file | program =>
    rw [← pure_eq_ok.mp hrest]
    exact refl t
  | pipe p =>
    dsimp only at hrest
    split at hrest
    next => cases hrest
    next =>
      rw [← pure_eq_ok.mp hrest]
      exact changePipe ..

end Tidy

end FileTree

/-! ## The paths of pipes -/

namespace Channel

/-- What the path of a pipe has behind the program's. -/
def suffix : Channel → String
  | report => "-report"
  | output => "-output"

theorem path_eq (exe : String) (c : Channel) : c.path exe = exe ++ c.suffix := by
  cases c <;> rfl

theorem endsWithSlash_path (exe : String) (c : Channel) :
    Path.endsWithSlash (c.path exe) = false := by
  rw [path_eq, Path.endsWithSlash, String.toList_append, List.getLast?_append]
  cases c <;> rfl

/-- What the path of a program ends in. -/
def stem (exe : String) : String := String.ofList (lastPiece (· == '/') exe.toList)

/-- **The path of a pipe ends in a name**, which is that of the program
and a suffix. So the two pipes of a program are never at one place. -/
theorem getLast?_pieces_path (exe : String) (c : Channel) :
    ((Path.pieces (c.path exe)).filter (· != "")).getLast? = some (stem exe ++ c.suffix) := by
  have hall : c.suffix.toList.all (fun a => !(a == '/')) = true := by cases c <;> rfl
  have hslash : ∀ a ∈ c.suffix.toList, (a == '/') = false := fun a ha =>
    Bool.not_eq_true' _ ▸ List.all_eq_true.mp hall a ha
  have hlast : lastPiece (· == '/') (c.path exe).toList
      = lastPiece (· == '/') exe.toList ++ c.suffix.toList := by
    rw [path_eq, String.toList_append, lastPiece_append_of_forall _ hslash]
  have hne : (stem exe ++ c.suffix != "") = true := by
    refine bne_iff_ne.mpr fun h => ?_
    rw [String.append_eq_empty_iff] at h
    cases c <;> exact absurd h.2 (by decide)
  rw [stem] at hne ⊢
  rw [Path.pieces, ← dropLast_append_lastPiece, hlast, List.map_append, List.filter_append,
    List.map_singleton, String.ofList_append, String.ofList_toList,
    List.filter_cons, if_pos hne, List.filter_nil, List.getLast?_concat]

/-- **The path of a pipe leads to its name in a directory.** -/
theorem locate_path_eq {t : FileTree} {workingDir : Place} {exe : String} {c : Channel}
    {l : FileTree.Location} (h : t.locate workingDir (c.path exe) = .ok l) :
    ∃ dir, l = .named dir (stem exe ++ c.suffix) false := by
  have hlast := getLast?_pieces_path exe c
  have hlength : 7 ≤ (stem exe ++ c.suffix).length := by
    rw [String.length_append]
    cases c <;> exact Nat.le_add_left 7 _
  have hdots : ∀ dots : String, dots.length < 7 → stem exe ++ c.suffix ≠ dots :=
    fun dots hshort heq => by
      rw [heq] at hlength
      exact absurd hlength (Nat.not_le.mpr hshort)
  obtain ⟨dir, hl⟩ :=
    FileTree.locate_of_getLast? hlast (hdots "." (by decide)) (hdots ".." (by decide)) h
  rw [endsWithSlash_path] at hl
  exact ⟨dir, hl⟩

end Channel

end Specimen
