import Specimen.Proofs.Artefacts
import Specimen.Proofs.Sources

/-!
# Runs at once

However many runs create their sources at once, in however many threads
and processes, and however they come to move, no two calls have one name
for what they make. Numbers are what keeps them apart: taking one is a
single move, so no two calls of one process have the same, and the number
of the process is in the name as well. So whatever is in the build
directory was there from the start, or was made by the one call that has
its number (`Shared.Sound`). Each move keeps that (`Shared.Sound.step`),
and so do many (`Shared.Sound.run`).

A turn of a call is looked at once. It is one of four things
(`Call.turn_eq_some`), and all that is said of turns comes from these
four.
-/

namespace Specimen

/-! ## Making a file where nothing is -/

namespace FileTree

variable {t : FileTree} {here : Place} {path : String}

theorem checkDirectory_ne_exists (t : FileTree) (place : Place) :
    t.checkDirectory place ≠ .error .alreadyExists := by
  unfold checkDirectory
  split <;> nofun

theorem checkName_ne_exists (name : String) : checkName name ≠ .error .alreadyExists := by
  unfold checkName
  split <;> nofun

/-- Following a name never finds something in the way. -/
theorem step_ne_exists (t : FileTree) (place : Place) (name : String) :
    t.step place name ≠ .error .alreadyExists := by
  intro h
  rcases bind_eq_error.mp h with hdir | ⟨_, -, hrest⟩
  · exact checkDirectory_ne_exists t place hdir
  · split at hrest
    next => cases hrest
    next =>
      split at hrest
      next => cases hrest
      next =>
        rcases bind_eq_error.mp hrest with hname | ⟨_, -, hrest⟩
        · exact checkName_ne_exists name hname
        · cases hrest

/-- **Following a path never finds something in the way.** -/
theorem locate_ne_exists (t : FileTree) (here : Place) (path : String) :
    t.locate here path ≠ .error .alreadyExists := by
  intro h
  rcases bind_eq_error.mp h with hpath | ⟨_, -, hfollow⟩
  · unfold checkPath checkLength at hpath
    repeat' split at hpath
    all_goals cases hpath
  · cases hlast : ((Path.pieces path).filter (· != "")).getLast? with
    | none =>
      simp only [follow, hlast] at hfollow
      cases hfollow
    | some last =>
      rw [follow_of_getLast? hlast] at hfollow
      rcases bind_eq_error.mp hfollow with hnames | ⟨dir, -, hrest⟩
      · obtain ⟨_, name, _, place, -, -, hstep⟩ := foldlM_eq_error.mp hnames
        exact step_ne_exists t place name hstep
      · rcases bind_eq_error.mp hrest with hdir | ⟨_, -, hrest⟩
        · exact checkDirectory_ne_exists t dir hdir
        · repeat' split at hrest
          all_goals cases hrest

/-- **If something is there already, the path leads to it.** -/
theorem find_of_newFile_eq_exists {p n : String} (hn : Path.IsName n) (hup : n ≠ "..")
    (h : t.newFile here (Path.join p n) = .error .alreadyExists) :
    ∃ found, t.find here (Path.join p n) = .ok found := by
  rcases bind_eq_error.mp h with hlocate | ⟨l, hlocate, hl⟩
  · exact absurd hlocate (locate_ne_exists _ _ _)
  obtain ⟨dir, rfl⟩ := locate_of_getLast? (Path.getLast?_pieces_join hn) hn.ne_dot hup hlocate
  rw [Path.endsWithSlash_join_name hn] at hl hlocate
  rcases bind_eq_error.mp hl with hentry | ⟨e, hentry, hrest⟩
  · rcases bind_eq_error.mp hentry with hname | ⟨_, -, hget⟩
    · exact absurd hname (checkName_ne_exists n)
    · cases hget
  · obtain ⟨_, hname, hget⟩ := bind_eq_ok.mp hentry
    cases e with
    | none => cases hrest
    | some e =>
      exact ⟨(dir ++ [n], e), find_eq_ok.mpr ⟨_, hlocate, rfl, pure_eq_ok.mp hget, hname, nofun⟩⟩

end FileTree

namespace Run

/-! ## Turns -/

/-- The number that a call has, unless it is about to take one. -/
def Progress.number? : Progress → Option Nat
  | counting => none
  | trying n => some n
  | created n => some n
  | refused n _ => some n

namespace Call

variable {c : Call} {counter n : Nat} {t t' : FileTree} {after : Progress × Nat × FileTree}

/-- The name of the source with a number. -/
def name (c : Call) (n : Nat) : String := artefactName c.processId n ".cpp"

theorem path_eq (c : Call) (n : Nat) : c.path n = Path.join c.dir (c.name n) := rfl

theorem isName_name (c : Call) (n : Nat) : Path.IsName (c.name n) := isName_artefactName (by decide)

/-- **The number of a source is told by its name**, and so is the
process. -/
theorem name_inj {d : Call} {m : Nat} (h : c.name m = d.name n) :
    c.processId = d.processId ∧ m = n := by
  obtain ⟨hprocess, hnumber, -⟩ := artefactName_inj (by decide) (by decide) h
  exact ⟨hprocess, hnumber⟩

/-- A call gives back the path of the file it has made. -/
theorem result?_eq_ok {path : String} :
    c.result? = some (.ok path) ↔ ∃ n, c.progress = .created n ∧ path = c.path n := by
  unfold result?
  cases c.progress with
  | created n =>
    constructor
    · intro h
      cases h
      exact ⟨n, rfl, rfl⟩
    · rintro ⟨n, h, rfl⟩
      cases h
      rfl
  | counting | trying | refused => exact ⟨nofun, fun ⟨_, h, _⟩ => nomatch h⟩

/-- A call fails for the fault that the system has found with its file. -/
theorem result?_eq_error {e : Failure} :
    c.result? = some (.error e) ↔ ∃ n fault, c.progress = .refused n fault ∧
      e = .system ("create source: " ++ c.path n) fault := by
  unfold result?
  cases c.progress with
  | refused n fault =>
    constructor
    · intro h
      cases h
      exact ⟨n, fault, rfl, rfl⟩
    · rintro ⟨n, fault, h, rfl⟩
      cases h
      rfl
  | counting | trying | created => exact ⟨nofun, fun ⟨_, _, h, _⟩ => nomatch h⟩

/-- **What a turn does.** -/
inductive Turned (c : Call) (counter : Nat) (t : FileTree) : Progress × Nat × FileTree → Prop where
  /-- The call has taken a number. -/
  | counted (h : c.progress = .counting) : Turned c counter t (.trying counter, counter + 1, t)
  /-- The call has made its file. -/
  | created {n : Nat} {t' : FileTree} (h : c.progress = .trying n)
      (hnew : t.newFile c.here (c.path n) = .ok t') : Turned c counter t (.created n, counter, t')
  /-- Something was there, and the call goes on to the next number. -/
  | passed {n : Nat} (h : c.progress = .trying n)
      (hnew : t.newFile c.here (c.path n) = .error .alreadyExists) :
      Turned c counter t (.counting, counter, t)
  /-- The system has refused the call its file. -/
  | refused {n : Nat} {fault : SystemFault} (h : c.progress = .trying n)
      (hfault : fault ≠ .alreadyExists) : Turned c counter t (.refused n fault, counter, t)

theorem turn_create_of_ok (hc : c.progress = .trying n)
    (hnew : t.newFile c.here (c.path n) = .ok t') :
    c.turn counter t .create = some (.created n, counter, t') := by
  unfold turn
  rw [hc]
  dsimp only
  rw [hnew]

theorem turn_create_of_error {fault : SystemFault} (hc : c.progress = .trying n)
    (hnew : t.newFile c.here (c.path n) = .error fault) : c.turn counter t .create
      = some (if fault = .alreadyExists then .counting else .refused n fault, counter, t) := by
  unfold turn
  rw [hc]
  dsimp only
  rw [hnew]

/-- **A turn does one of four things.** It takes a number, makes the file
of its number, finds that something is there, or is refused the file. All
that is said of turns is said of these four. -/
theorem turn_eq_some {a : Turn} (h : c.turn counter t a = some after) : c.Turned counter t after := by
  cases a with
  | count =>
    unfold turn at h
    dsimp only at h
    split at h
    next hc =>
      cases h
      exact .counted hc
    next => cases h
  | create =>
    unfold turn at h
    dsimp only at h
    split at h
    next n hc =>
      split at h
      next t' hnew =>
        cases h
        exact .created hc hnew
      next fault hnew =>
        cases h
        split
        next hfault => exact .passed hc (hfault ▸ hnew)
        next hfault => exact .refused hc hfault
    next => cases h
  | refuse fault =>
    unfold turn at h
    dsimp only at h
    split at h
    next n hc =>
      split at h
      next => cases h
      next hfault =>
        cases h
        exact .refused hc hfault
    next => cases h

namespace Turned

variable (h : Turned c counter t after)
include h

theorem result?_eq_none : c.result? = none := by
  unfold result?
  cases h with
  | counted h | created h | passed h | refused h => rw [h]

theorem counter_le : counter ≤ after.2.1 := by
  cases h with
  | counted => exact Nat.le_succ counter
  | created | passed | refused => exact Nat.le_refl counter

/-- **A number is new or was there before**: new ones come from the
counter, which goes on. -/
theorem number? (hn : after.1.number? = some n) :
    c.progress.number? = some n ∨ n = counter ∧ after.2.1 = counter + 1 := by
  cases h with
  | counted => exact .inr ⟨(Option.some.inj hn).symm, rfl⟩
  | created h | refused h => exact .inl (h ▸ hn)
  | passed => cases hn

theorem within : t.Within after.2.2 := by
  cases h with
  | created _ hnew =>
    obtain ⟨place, hnone, rfl, -⟩ := FileTree.find_newFile hnew
    exact .insert hnone _
  | counted | passed | refused => exact .refl t

/-- **What is there after a turn** was there before, or is the source that
the call has made. -/
theorem made {place : Place} (hplace : after.2.2.get? place ≠ none) :
    t.get? place ≠ none ∨ ∃ n, after.1 = .created n ∧ place.getLast? = some (c.name n) := by
  cases h with
  | created _ hnew =>
    obtain ⟨made, hnone, rfl, hfind⟩ := FileTree.find_newFile hnew
    by_cases hother : place = made
    · subst hother
      exact .inr ⟨_, rfl, Path.getLast?_of_find (c.isName_name _) (artefactName_ne_up _ _ _) hfind⟩
    · rw [FileTree.get?_insert_of_ne hother] at hplace
      exact .inl hplace
  | counted | passed | refused => exact .inl hplace

theorem isFile (hn : after.1 = .created n) : after.2.2.isFile c.here (c.path n) = true := by
  cases h with
  | created _ hnew =>
    cases hn
    obtain ⟨place, -, -, hfind⟩ := FileTree.find_newFile hnew
    exact FileTree.isFile_iff.mpr ⟨place, _, hfind, rfl⟩
  | counted | passed | refused => cases hn

/-- A call does not fail because something is there. -/
theorem fault_ne {fault : SystemFault} (hn : after.1 = .refused n fault) :
    fault ≠ .alreadyExists := by
  cases h with
  | refused _ hfault =>
    cases hn
    exact hfault
  | counted | created | passed => cases hn

/-- **A call makes its file where nothing is.** -/
theorem find_ne_ok (hn : after.1 = .created n) (found : Place × Entry) :
    t.find c.here (c.path n) ≠ .ok found := by
  cases h with
  | created _ hnew =>
    cases hn
    obtain ⟨place, hnone, rfl, hfind⟩ := FileTree.find_newFile hnew
    intro hbefore
    obtain ⟨rfl, -⟩ := Prod.mk.inj
      (Except.ok.inj ((FileTree.Within.insert hnone _).find hbefore |>.symm.trans hfind))
    obtain ⟨_, -, -, hget, -⟩ := FileTree.find_eq_ok.mp hbefore
    rw [hnone] at hget
    cases hget
  | counted | passed | refused => cases hn

end Turned

end Call

namespace Shared

variable {t : FileTree} {x y : Shared} {m : Act} {i j : Nat} {c d : Call}
  {after : Progress × Nat × FileTree}

/-! ## Moves -/

/-- A call after a new one was made. -/
theorem getElem?_calls_concat {calls : List Call} (h : (calls ++ [c])[j]? = some d) :
    calls[j]? = some d ∨ j = calls.length ∧ d = c := by
  rw [List.getElem?_append] at h
  split at h
  next => exact .inl h
  next hj =>
    rw [List.getElem?_singleton] at h
    split at h
    next hzero =>
      exact .inr ⟨Nat.le_antisymm (Nat.le_of_sub_eq_zero hzero) (Nat.not_lt.mp hj),
        (Option.some.inj h).symm⟩
    next => cases h

theorem getElem?_put (hc : x.calls[i]? = some c) (after : Progress × Nat × FileTree) (j : Nat) :
    (x.put i c after).calls[j]?
      = if i = j then some { c with progress := after.1 } else x.calls[j]? := by
  obtain ⟨hi, -⟩ := List.getElem?_eq_some_iff.mp hc
  unfold put
  rw [List.getElem?_set, if_pos hi]

/-- A call after a turn is the one that took it, or another. -/
theorem getElem?_put_eq_some (hc : x.calls[i]? = some c)
    (h : (x.put i c after).calls[j]? = some d) :
    i = j ∧ d = { c with progress := after.1 } ∨ i ≠ j ∧ x.calls[j]? = some d := by
  rw [getElem?_put hc] at h
  split at h
  next hij => exact .inl ⟨hij, (Option.some.inj h).symm⟩
  next hij => exact .inr ⟨hij, h⟩

theorem step_turn (hc : x.calls[i]? = some c) (a : Turn) : x.step (.turn i a)
    = (c.turn (x.counters c.processId) x.tree a).map (x.put i c) := by
  show (x.calls[i]?).bind _ = _
  rw [hc]
  cases h : c.turn (x.counters c.processId) x.tree a <;> simp [h]

section

variable (hc : x.calls[i]? = some c) (h : c.Turned (x.counters c.processId) x.tree after)
include h

theorem counters_le_put (i processId : Nat) :
    x.counters processId ≤ (x.put i c after).counters processId := by
  unfold put
  dsimp only
  split
  next hprocess => exact hprocess ▸ h.counter_le
  next => exact Nat.le_refl _

include hc

/-- A call that has ended stays as it is in a turn of another. -/
theorem getElem?_put_of_ended (hd : x.calls[j]? = some d) (hended : d.result? ≠ none) :
    (x.put i c after).calls[j]? = some d := by
  rw [getElem?_put hc]
  split
  next hij =>
    subst hij
    cases hc.symm.trans hd
    exact absurd h.result?_eq_none hended
  next => exact hd

end

/-- **What a move does.** -/
inductive Moved (x : Shared) : Act → Shared → Prop where
  /-- A call was made. -/
  | called (processId : Nat) (here : Place) (dir : String) : Moved x (.call processId here dir)
      { x with calls := x.calls ++ [⟨processId, here, dir, .counting⟩] }
  /-- A call has taken a turn. -/
  | turned {i : Nat} {a : Turn} {c : Call} {after : Progress × Nat × FileTree}
      (hc : x.calls[i]? = some c) (h : c.Turned (x.counters c.processId) x.tree after) :
      Moved x (.turn i a) (x.put i c after)

/-- **A move is a new call or a turn.** -/
theorem step_eq_some (h : x.step m = some y) : x.Moved m y := by
  cases m with
  | call processId here dir =>
    cases h
    exact .called processId here dir
  | turn i a =>
    obtain ⟨c, hc, -⟩ := Option.bind_eq_some_iff.mp h
    rw [step_turn hc, Option.map_eq_some_iff] at h
    obtain ⟨after, hafter, rfl⟩ := h
    exact .turned hc (Call.turn_eq_some hafter)

theorem run_cons {moves : List Act} :
    x.run (m :: moves) = some y ↔ ∃ z, x.step m = some z ∧ z.run moves = some y := by
  rw [run, List.foldlM_cons]
  exact Option.bind_eq_some_iff

namespace Moved

variable (h : x.Moved m y)
include h

theorem counters_le (processId : Nat) : x.counters processId ≤ y.counters processId := by
  cases h with
  | called => exact Nat.le_refl _
  | turned hc h => exact counters_le_put h _ processId

theorem within : x.tree.Within y.tree := by
  cases h with
  | called => exact .refl _
  | turned _ h => exact h.within

/-- **A call that has ended stays as it is.** -/
theorem ended (hc : x.calls[i]? = some c) (hended : c.result? ≠ none) : y.calls[i]? = some c := by
  cases h with
  | called =>
    obtain ⟨hi, -⟩ := List.getElem?_eq_some_iff.mp hc
    rwa [List.getElem?_append_left hi]
  | turned hd h => exact getElem?_put_of_ended hd h hc hended

end Moved

/-! ## What moves keep -/

/-- **Sound calls**, which began with some files: the numbers they have are
different ones, and nothing is there but the files from the start and the
sources that calls have made. -/
structure Sound (t : FileTree) (x : Shared) : Prop where
  /-- Numbers come from counters, which have gone on. -/
  counted : ∀ (i : Nat) (c : Call) (n : Nat), x.calls[i]? = some c → c.progress.number? = some n →
    n < x.counters c.processId
  /-- Two calls of one process have two numbers. -/
  distinct : ∀ (i j : Nat) (c d : Call) (n : Nat), x.calls[i]? = some c → x.calls[j]? = some d →
    c.processId = d.processId → c.progress.number? = some n → d.progress.number? = some n → i = j
  /-- What is there was there from the start or is a source that was made. -/
  made : ∀ place, x.tree.get? place ≠ none → t.get? place ≠ none ∨
    ∃ (i : Nat) (c : Call) (n : Nat), x.calls[i]? = some c ∧ c.progress = .created n ∧
      place.getLast? = some (c.name n)
  /-- The sources that were made are there. -/
  kept : ∀ (i : Nat) (c : Call) (n : Nat), x.calls[i]? = some c → c.progress = .created n →
    x.tree.isFile c.here (c.path n) = true
  /-- No call fails because something is there. -/
  faults : ∀ (i : Nat) (c : Call) (n : Nat) (fault : SystemFault), x.calls[i]? = some c →
    c.progress = .refused n fault → fault ≠ .alreadyExists

theorem sound_start (t : FileTree) (counters : Nat → Nat) : Sound t (start t counters) where
  counted := nofun
  distinct := nofun
  made _ h := .inl h
  kept := nofun
  faults := nofun

namespace Sound

/-- **A new call** has no number yet. -/
theorem called (hx : Sound t x) (processId : Nat) (here : Place) (dir : String) :
    Sound t { x with calls := x.calls ++ [⟨processId, here, dir, .counting⟩] } where
  counted i c n hc hn := by
    rcases getElem?_calls_concat hc with hc | ⟨-, rfl⟩
    · exact hx.counted i c n hc hn
    · cases hn
  distinct i j c d n hc hd hprocess hn hn' := by
    rcases getElem?_calls_concat hc with hc | ⟨-, rfl⟩
    · rcases getElem?_calls_concat hd with hd | ⟨-, rfl⟩
      · exact hx.distinct i j c d n hc hd hprocess hn hn'
      · cases hn'
    · cases hn
  made place hplace := by
    refine (hx.made place hplace).imp_right ?_
    rintro ⟨i, c, n, hc, hcreated, hlast⟩
    obtain ⟨hi, -⟩ := List.getElem?_eq_some_iff.mp hc
    exact ⟨i, c, n, (List.getElem?_append_left hi).trans hc, hcreated, hlast⟩
  kept i c n hc hcreated := by
    rcases getElem?_calls_concat hc with hc | ⟨-, rfl⟩
    · exact hx.kept i c n hc hcreated
    · cases hcreated
  faults i c n fault hc hrefused := by
    rcases getElem?_calls_concat hc with hc | ⟨-, rfl⟩
    · exact hx.faults i c n fault hc hrefused
    · cases hrefused

section

variable (hx : Sound t x) (hc : x.calls[i]? = some c)
  (h : c.Turned (x.counters c.processId) x.tree after)
include hx hc h

/-- A number that a call has after its turn is not that of another call. -/
theorem number?_ne {n : Nat} (hd : x.calls[j]? = some d) (hij : i ≠ j)
    (hprocess : c.processId = d.processId) (hn : after.1.number? = some n) :
    d.progress.number? ≠ some n := by
  intro hn'
  rcases h.number? hn with hold | ⟨rfl, -⟩
  · exact hij (hx.distinct i j c d n hc hd hprocess hold hn')
  · -- a number from the counter is one that nobody has
    exact absurd (hprocess ▸ hx.counted j d _ hd hn') (Nat.lt_irrefl _)

/-- **A turn keeps calls sound.** -/
theorem turned : Sound t (x.put i c after) where
  counted j d n hd hn := by
    have hle := counters_le_put h i d.processId
    rcases getElem?_put_eq_some hc hd with ⟨rfl, rfl⟩ | ⟨-, hd⟩
    · have hcounter : (x.put i c after).counters c.processId = after.2.1 := if_pos rfl
      show n < (x.put i c after).counters c.processId
      rcases h.number? hn with hold | ⟨rfl, hnext⟩
      · exact (hx.counted i c n hc hold).trans_le hle
      · rw [hcounter, hnext]
        exact Nat.lt_succ_self _
    · exact (hx.counted j d n hd hn).trans_le hle
  distinct j k d e n hd he hprocess hn hn' := by
    rcases getElem?_put_eq_some hc hd with ⟨rfl, rfl⟩ | ⟨hij, hd⟩
    · rcases getElem?_put_eq_some hc he with ⟨hik, -⟩ | ⟨hik, he⟩
      · exact hik
      · exact absurd hn' (hx.number?_ne hc h he hik hprocess hn)
    · rcases getElem?_put_eq_some hc he with ⟨rfl, rfl⟩ | ⟨-, he⟩
      · exact absurd hn (hx.number?_ne hc h hd hij hprocess.symm hn')
      · exact hx.distinct j k d e n hd he hprocess hn hn'
  made place hplace := by
    rcases h.made hplace with hbefore | ⟨n, hcreated, hlast⟩
    · refine (hx.made place hbefore).imp_right ?_
      rintro ⟨j, d, n, hd, hcreated, hlast⟩
      have hended : d.result? ≠ none := by
        unfold Call.result?
        rw [hcreated]
        nofun
      exact ⟨j, d, n, getElem?_put_of_ended hc h hd hended, hcreated, hlast⟩
    · exact .inr ⟨i, { c with progress := after.1 }, n, (getElem?_put hc after i).trans (if_pos rfl),
        hcreated, hlast⟩
  kept j d n hd hcreated := by
    rcases getElem?_put_eq_some hc hd with ⟨rfl, rfl⟩ | ⟨-, hd⟩
    · exact h.isFile hcreated
    · exact h.within.isFile (hx.kept j d n hd hcreated)
  faults j d n fault hd hrefused := by
    rcases getElem?_put_eq_some hc hd with ⟨rfl, rfl⟩ | ⟨-, hd⟩
    · exact h.fault_ne hrefused
    · exact hx.faults j d n fault hd hrefused

end

/-- **A move keeps calls sound.** -/
theorem step (hx : Sound t x) (h : x.Moved m y) : Sound t y := by
  cases h with
  | called processId here dir => exact hx.called processId here dir
  | turned hc h => exact hx.turned hc h

/-- **Moves keep calls sound.** -/
theorem run (hx : Sound t x) {moves : List Act} (hrun : x.run moves = some y) : Sound t y := by
  induction moves generalizing x with
  | nil =>
    cases hrun
    exact hx
  | cons m moves ih =>
    obtain ⟨z, hz, hrest⟩ := run_cons.mp hrun
    exact ih (hx.step (step_eq_some hz)) hrest

end Sound

end Shared

end Run

end Specimen
