import Specimen.Proofs.Sharing

/-!
# Runs at once have files of their own

No two runs get a file that another has, and each of them gets one or is
refused it by the system (`Shared.calls_share_nothing`).

A call comes to its end whatever the others do. When it finds something
in its way, that was there from the start, and the call does not come to
it again. So two turns for each file whose name was not tried yet, and two
more, are all that a call has ahead of it (`Shared.ahead`). Its own turns
make that less, and no other move makes it more
(`Shared.Sound.ahead_step`).

A call that is alone goes through the loop of `Run.createSource`
(`Shared.createSource_alone`). As it has fewer turns than the loop allows,
the loop is never given up (`Shared.createSource_fault_ne`).
-/

namespace Specimen.Run.Shared

variable {t : FileTree} {x y : Shared} {m : Act} {i : Nat} {c : Call}
  {after : Progress × Nat × FileTree}

/-! ## How far calls are from their end -/

/-- Whether what is somewhere has none of the first names of sources of a
process. -/
def isUntried (processId n : Nat) (e : Place.Key × Entry) : Bool :=
  ∀ k < n, e.1.2.getLast? ≠ some (artefactName processId k ".cpp")

/-- How many files were there from the start that have none of these
names. -/
def untried (t : FileTree) (processId n : Nat) : Nat := t.countP (isUntried processId n)

/-- Whether a source with a number was there from the start. -/
def Taken (t : FileTree) (processId n : Nat) : Prop :=
  ∃ e ∈ t, e.1.2.getLast? = some (artefactName processId n ".cpp")

theorem untried_le (t : FileTree) (processId n : Nat) : untried t processId n ≤ t.length :=
  List.countP_le_length

/-- There are no more of them when more numbers were tried. -/
theorem untried_anti (t : FileTree) (processId : Nat) {m n : Nat} (h : m ≤ n) :
    untried t processId n ≤ untried t processId m := by
  refine List.countP_mono_left fun e _ he => ?_
  unfold isUntried at he ⊢
  rw [decide_eq_true_eq] at he ⊢
  exact fun k hk => he k (hk.trans_le h)

/-- **A number that is taken leaves fewer of them.** -/
theorem untried_succ_lt {processId n : Nat} (h : Taken t processId n) :
    untried t processId (n + 1) < untried t processId n := by
  obtain ⟨e, he, hlast⟩ := h
  obtain ⟨before, behind, rfl⟩ := List.append_of_mem he
  have hbefore := untried_anti before processId (Nat.le_add_right n 1)
  have hbehind := untried_anti behind processId (Nat.le_add_right n 1)
  have htried : ¬isUntried processId (n + 1) e = true := fun hall =>
    of_decide_eq_true hall n (Nat.lt_succ_self n) hlast
  have huntried : isUntried processId n e = true := by
    refine decide_eq_true fun k hk hk' => ?_
    obtain ⟨-, rfl, -⟩ :=
      artefactName_inj (by decide) (by decide) (Option.some.inj (hlast.symm.trans hk'))
    exact Nat.lt_irrefl n hk
  unfold untried at hbefore hbehind ⊢
  rw [List.countP_append, List.countP_append, List.countP_cons_of_neg htried,
    List.countP_cons_of_pos huntried]
  omega

/-- The most turns that a call has ahead of it: two for each number that may
be taken, and two more to make its own file. -/
def turnsAhead (t : FileTree) (counter : Nat) (c : Call) : Nat :=
  match c.progress with
  | .counting => 2 * untried t c.processId counter + 2
  | .trying n => 2 * untried t c.processId n + 1
  | _ => 0

/-- **The most turns that a call has ahead of it**, whether it was made yet
or not. -/
def ahead (t : FileTree) (x : Shared) (i : Nat) : Nat :=
  match x.calls[i]? with
  | some c => turnsAhead t (x.counters c.processId) c
  | none => 2 * t.length + 2

theorem ahead_eq_of_calls (h : x.calls[i]? = some c) :
    ahead t x i = turnsAhead t (x.counters c.processId) c := by
  rw [ahead, h]

/-- Turns of others make it no more. -/
theorem turnsAhead_anti (t : FileTree) {counter counter' : Nat} (h : counter ≤ counter')
    (c : Call) : turnsAhead t counter' c ≤ turnsAhead t counter c := by
  unfold turnsAhead
  have hanti := untried_anti t c.processId h
  split <;> omega

namespace Sound

/-- **What is in the way of a call was there from the start.** A process
gives a number to one call only, so no other call makes a file of this
name, and calls make no other files. -/
theorem taken (hx : Sound t x) (hc : x.calls[i]? = some c) {n : Nat} (hn : c.progress = .trying n)
    (hnew : x.tree.newFile c.here (c.path n) = .error .alreadyExists) :
    Taken t c.processId n := by
  rw [c.path_eq] at hnew
  obtain ⟨⟨place, e⟩, hfind⟩ :=
    FileTree.find_of_newFile_eq_exists (c.isName_name n) (artefactName_ne_up _ _ _) hnew
  have hlast : place.getLast? = some (c.name n) :=
    Path.getLast?_of_find (c.isName_name n) (artefactName_ne_up _ _ _) hfind
  obtain ⟨_, -, -, hget, -⟩ := FileTree.find_eq_ok.mp hfind
  have hsome : x.tree.get? place ≠ none := by
    rw [hget]
    nofun
  rcases hx.made place hsome with hstart | ⟨j, d, m, hd, hm, hlast'⟩
  · have hroot : place ≠ [] := by
      rintro rfl
      cases hlast
    rw [FileTree.get?, if_neg hroot] at hstart
    obtain ⟨e, he⟩ := Option.ne_none_iff_exists'.mp hstart
    obtain ⟨before, behind, rfl, -⟩ := List.lookup_eq_some_iff.mp he
    exact ⟨(place.key, e), List.mem_append_right _ List.mem_cons_self, hlast⟩
  · -- a call that has made a file with this name would be the call itself
    obtain ⟨hprocess, rfl⟩ := Call.name_inj (Option.some.inj (hlast.symm.trans hlast'))
    have hnumber : c.progress.number? = some n := by rw [hn]; rfl
    have hnumber' : d.progress.number? = some n := by rw [hm]; rfl
    obtain rfl := hx.distinct i j c d n hc hd hprocess hnumber hnumber'
    cases hc.symm.trans hd
    rw [hn] at hm
    cases hm

/-- **A call that takes a turn has fewer ahead of it.** -/
theorem turnsAhead_turned (hx : Sound t x) (hc : x.calls[i]? = some c)
    (h : c.Turned (x.counters c.processId) x.tree after) :
    turnsAhead t after.2.1 { c with progress := after.1 } + 1
      ≤ turnsAhead t (x.counters c.processId) c := by
  cases h with
  | counted hn =>
    unfold turnsAhead
    rw [hn]
  | created hn | refused hn =>
    unfold turnsAhead
    rw [hn]
    exact Nat.succ_le_succ (Nat.zero_le _)
  | @passed n hn hnew =>
    -- the next number is beyond this one, which is taken
    have hnumber : c.progress.number? = some n := by rw [hn]; rfl
    have hanti : untried t c.processId (x.counters c.processId) ≤ untried t c.processId (n + 1) :=
      untried_anti t c.processId (hx.counted i c n hc hnumber)
    have hlt := untried_succ_lt (hx.taken hc hn hnew)
    unfold turnsAhead
    rw [hn]
    dsimp only
    omega

/-- **A turn makes what the call has ahead of it less**, and no move makes
it more. So a call ends after as many turns as it had ahead when it was
made, however the others come between. -/
theorem ahead_step (hx : Sound t x) (h : x.Moved m y) (i : Nat) :
    ahead t y i + (if m.isTurnOf i then 1 else 0) ≤ ahead t x i := by
  have hle := h.counters_le
  cases h with
  | called processId here dir =>
    show ahead t _ i + 0 ≤ _
    cases hc : x.calls[i]? with
    | some c =>
      obtain ⟨hi, -⟩ := List.getElem?_eq_some_iff.mp hc
      rw [ahead_eq_of_calls hc, ahead_eq_of_calls ((List.getElem?_append_left hi).trans hc)]
      exact Nat.le_refl _
    | none =>
      have hnone : ahead t x i = 2 * t.length + 2 := by rw [ahead, hc]
      rw [hnone]
      cases hnew : (x.calls ++ [⟨processId, here, dir, .counting⟩])[i]? with
      | none =>
        rw [ahead, hnew]
      | some c =>
        rcases getElem?_calls_concat hnew with hold | ⟨-, rfl⟩
        · rw [hc] at hold
          cases hold
        · rw [ahead_eq_of_calls hnew]
          have hlength := untried_le t processId (x.counters processId)
          unfold turnsAhead
          dsimp only
          omega
  | @turned j a c after hc h =>
    have hput := getElem?_put hc after i
    show ahead t _ i + (if i == j then 1 else 0) ≤ _
    by_cases hij : j = i
    · subst hij
      rw [if_pos rfl] at hput
      rw [ahead_eq_of_calls hc, ahead_eq_of_calls hput, beq_self_eq_true, if_pos rfl]
      have hcounter : (x.put j c after).counters c.processId = after.2.1 := if_pos rfl
      show turnsAhead t ((x.put j c after).counters c.processId) _ + 1 ≤ _
      rw [hcounter]
      exact hx.turnsAhead_turned hc h
    · rw [if_neg hij] at hput
      rw [beq_eq_false_iff_ne.mpr (Ne.symm hij)]
      cases hd : x.calls[i]? with
      | none =>
        rw [hd] at hput
        rw [ahead, ahead, hd, hput]
        exact Nat.le_refl _
      | some d =>
        rw [ahead_eq_of_calls hd, ahead_eq_of_calls (hput.trans hd)]
        exact turnsAhead_anti t (hle d.processId) d

/-- **Turns make what a call has ahead of it less**, one by one. -/
theorem ahead_run (hx : Sound t x) {moves : List Act} (hrun : x.run moves = some y) (i : Nat) :
    ahead t y i + moves.countP (·.isTurnOf i) ≤ ahead t x i := by
  induction moves generalizing x with
  | nil =>
    cases hrun
    exact Nat.le_refl _
  | cons m moves ih =>
    obtain ⟨z, hz, hrest⟩ := run_cons.mp hrun
    have hfirst := hx.ahead_step (step_eq_some hz) i
    have hmore := ih (hx.step (step_eq_some hz)) hrest
    rw [List.countP_cons]
    omega

end Sound

/-! ## What calls give back -/

/-- **A call that has not ended can take a turn.** -/
theorem exists_step (hc : x.calls[i]? = some c) (hgoing : c.result? = none) :
    ∃ a ∈ [Turn.count, Turn.create], (x.step (.turn i a)).isSome := by
  unfold Call.result? at hgoing
  split at hgoing
  next => cases hgoing
  next => cases hgoing
  next hcreated hrefused =>
    cases hp : c.progress with
    | counting =>
      refine ⟨.count, List.mem_cons_self, ?_⟩
      rw [step_turn hc, Call.turn, hp]
      rfl
    | trying n =>
      refine ⟨.create, List.mem_cons_of_mem _ List.mem_cons_self, ?_⟩
      rw [step_turn hc, Call.turn, hp]
      dsimp only
      cases x.tree.newFile c.here (c.path n) <;> rfl
    | created n => exact absurd hp (hcreated n)
    | refused n fault => exact absurd hp (hrefused n fault)

/-- A call that has ended stays as it is, whatever comes. -/
theorem ended_run {moves : List Act} (hrun : x.run moves = some y) (hc : x.calls[i]? = some c)
    (hended : c.result? ≠ none) : y.calls[i]? = some c := by
  induction moves generalizing x with
  | nil =>
    cases hrun
    exact hc
  | cons m moves ih =>
    obtain ⟨z, hz, hrest⟩ := run_cons.mp hrun
    exact ih hrest ((step_eq_some hz).ended hc hended)

/-- **A path that a call gives back led nowhere** as long as the call had not
ended. -/
theorem find_ne_ok_of_run {moves : List Act} {path : String} (hrun : x.run moves = some y)
    (hgoing : ∀ d, x.calls[i]? = some d → d.result? = none) (hc : y.calls[i]? = some c)
    (hpath : c.result? = some (.ok path)) (found : Place × Entry) :
    x.tree.find c.here path ≠ .ok found := by
  induction moves generalizing x with
  | nil =>
    cases hrun
    rw [hgoing c hc] at hpath
    cases hpath
  | cons m moves ih =>
    obtain ⟨z, hz, hrest⟩ := run_cons.mp hrun
    replace hz := step_eq_some hz
    by_cases hstill : ∀ d, z.calls[i]? = some d → d.result? = none
    · exact fun hfind => ih hrest hstill (hz.within.find hfind)
    · -- this is the move with which the call has ended
      simp only [not_forall] at hstill
      obtain ⟨d, hd, hended⟩ := hstill
      cases (ended_run hrest hd hended).symm.trans hc
      cases hz with
      | called =>
        rcases getElem?_calls_concat hd with hd | ⟨-, rfl⟩
        · exact absurd (hgoing _ hd) hended
        · exact absurd rfl hended
      | turned hd' h =>
        rcases getElem?_put_eq_some hd' hd with ⟨rfl, rfl⟩ | ⟨-, hd⟩
        · obtain ⟨n, hcreated, rfl⟩ := Call.result?_eq_ok.mp hpath
          exact h.find_ne_ok hcreated found
        · exact absurd (hgoing _ hd) hended

theorem run_append {before behind : List Act} :
    x.run (before ++ behind) = (x.run before).bind fun y => y.run behind := by
  rw [run, List.foldlM_append]
  rfl

/-- **Runs at once share no file.** However calls come to move, from whatever
files and counters they begin with:

- No call takes more than two turns for each file that was there from the
  start, and two more. Until it has ended, it can take one.
- A call that fails does not fail because something is there.
- A path that is given back leads to a file, and has led nowhere at any
  time before the call had ended, nor did it at the start. The four files
  that belong to it are apart.
- Two calls give back different paths, and all that belongs to one is apart
  from all that belongs to the other. -/
theorem calls_share_nothing {counters : Nat → Nat} {moves : List Act}
    (hrun : (start t counters).run moves = some x) :
    (∀ i c, x.calls[i]? = some c →
      moves.countP (·.isTurnOf i) ≤ 2 * t.length + 2 ∧
      (c.result? = none → ∃ a ∈ [Turn.count, Turn.create], (x.step (.turn i a)).isSome) ∧
      (∀ e, c.result? = some (.error e) → ∃ n fault, fault ≠ .alreadyExists ∧
        e = .system ("create source: " ++ c.path n) fault) ∧
      ∀ path, c.result? = some (.ok path) →
        x.tree.isFile c.here path = true ∧
        (∀ before behind y, moves = before ++ behind → (start t counters).run before = some y →
          (∀ d, y.calls[i]? = some d → d.result? = none) →
          ∀ found, y.tree.find c.here path ≠ .ok found) ∧
        (artefacts path).Pairwise Path.Apart) ∧
    ∀ (i j : Nat) (c d : Call) (p q : String), i ≠ j →
      x.calls[i]? = some c → x.calls[j]? = some d →
      c.result? = some (.ok p) → d.result? = some (.ok q) →
      Path.same p q = false ∧ ∀ a ∈ artefacts p, ∀ b ∈ artefacts q, Path.Apart a b := by
  have hx := (sound_start t counters).run hrun
  constructor
  · intro i c hc
    refine ⟨?_, exists_step hc, fun e he => ?_, fun path hpath => ?_⟩
    · exact (Nat.le_add_left _ _).trans ((sound_start t counters).ahead_run hrun i)
    · obtain ⟨n, fault, hrefused, rfl⟩ := Call.result?_eq_error.mp he
      exact ⟨n, fault, hx.faults i c n fault hc hrefused, rfl⟩
    · obtain ⟨n, hcreated, rfl⟩ := Call.result?_eq_ok.mp hpath
      refine ⟨hx.kept i c n hc hcreated, ?_, pairwise_apart_artefacts _ _ _⟩
      rintro before behind y rfl hbefore hgoing found
      rw [run_append, hbefore] at hrun
      exact find_ne_ok_of_run hrun hgoing hc hpath found
  · intro i j c d p q hij hc hd hp hq
    obtain ⟨m, hm, rfl⟩ := Call.result?_eq_ok.mp hp
    obtain ⟨n, hn, rfl⟩ := Call.result?_eq_ok.mp hq
    have hne : ¬(c.processId = d.processId ∧ m = n) := by
      rintro ⟨hprocess, rfl⟩
      have hnumber : c.progress.number? = some m := by rw [hm]; rfl
      have hnumber' : d.progress.number? = some m := by rw [hn]; rfl
      exact hij (hx.distinct i j c d m hc hd hprocess hnumber hnumber')
    have hapart : ∀ a ∈ artefacts (c.path m), ∀ b ∈ artefacts (d.path n), Path.Apart a b :=
      fun _ ha _ hb => apart_of_mem_artefacts hne ha hb
    exact ⟨(hapart _ List.mem_cons_self _ List.mem_cons_self).not_same, hapart⟩

/-- Two threads of one process and one of another. The first number of the
first process is taken; the call that finds out gets the third, as the
other thread has the second. -/
theorem calls_share_nothing_interleaved :
    let t := (FileTree.insert ["b"] .directory []).insert ["b", "qit-7-0.cpp"] (.file [])
    let moves : List Act :=
      [.call 7 [] "/b", .call 8 [] "/b", .call 7 [] "b", .turn 0 .count, .turn 2 .count,
        .turn 1 .count, .turn 2 .create, .turn 0 .create, .turn 0 .count, .turn 1 .create,
        .turn 0 .create]
    ∃ x, (start t fun _ => 0).run moves = some x ∧
      x.calls.map Call.progress = [.created 2, .created 0, .created 1] ∧
      moves.countP (·.isTurnOf 0) ≤ 2 * t.length + 2 ∧
      (∀ found, t.find [] "/b/qit-7-2.cpp" ≠ .ok found) ∧
      ∀ a ∈ artefacts "/b/qit-7-2.cpp", ∀ b ∈ artefacts "b/qit-7-1.cpp", Path.Apart a b := by
  intro t moves
  have hends : ((start t fun _ => 0).run moves).map (·.calls)
      = some [⟨7, [], "/b", .created 2⟩, ⟨8, [], "/b", .created 0⟩, ⟨7, [], "b", .created 1⟩] := by
    decide +kernel
  obtain ⟨x, hrun, hcalls⟩ := Option.map_eq_some_iff.mp hends
  obtain ⟨heach, hboth⟩ := calls_share_nothing hrun
  have hfirst : x.calls[0]? = some ⟨7, [], "/b", .created 2⟩ := by rw [hcalls]; rfl
  have hthird : x.calls[2]? = some ⟨7, [], "b", .created 1⟩ := by rw [hcalls]; rfl
  have hpath : numberedSource "/b" 7 2 = "/b/qit-7-2.cpp" := by decide +kernel
  have hpath' : numberedSource "b" 7 1 = "b/qit-7-1.cpp" := by decide +kernel
  have hresult : Call.result? ⟨7, [], "/b", .created 2⟩ = some (.ok "/b/qit-7-2.cpp") :=
    Call.result?_eq_ok.mpr ⟨2, rfl, hpath.symm⟩
  have hresult' : Call.result? ⟨7, [], "b", .created 1⟩ = some (.ok "b/qit-7-1.cpp") :=
    Call.result?_eq_ok.mpr ⟨1, rfl, hpath'.symm⟩
  obtain ⟨hturns, -, -, hfresh⟩ := heach 0 _ hfirst
  have hnowhere := (hfresh _ hresult).2.1 [] moves (start t fun _ => 0) rfl rfl nofun
  exact ⟨x, hrun, by rw [hcalls]; rfl, hturns, hnowhere,
    (hboth 0 2 _ _ _ _ (by decide) hfirst hthird hresult hresult').2⟩

/-! ## A call that is alone -/

/-- **A call is alone** with some files and a counter. -/
structure Alone (c : Call) (counter : Nat) (t : FileTree) (x : Shared) : Prop where
  /-- There is no other call. -/
  calls : x.calls = [c]
  /-- The counter of its process. -/
  counter : x.counters c.processId = counter
  /-- The files. -/
  tree : x.tree = t

/-- A turn of a call that is alone. -/
theorem Alone.turn {counter : Nat} (hx : Alone c counter t x) {a : Turn}
    (hturn : c.turn counter t a = some after) : ∃ y, x.step (.turn 0 a) = some y ∧
      Alone { c with progress := after.1 } after.2.1 after.2.2 y := by
  have hc : x.calls[0]? = some c := by rw [hx.calls]; rfl
  refine ⟨x.put 0 c after, ?_, ?_, if_pos rfl, rfl⟩
  · rw [step_turn hc, hx.counter, hx.tree, hturn]
    rfl
  · show x.calls.set 0 _ = _
    rw [hx.calls]
    rfl

/-- **Trying a number** is two turns of a call. -/
theorem Alone.trySource {dir : String} {h h' : Host} {r : Except Failure (Option String)}
    (hrun : (trySource dir).run h = (r, h'))
    (hx : Alone ⟨h.processId, h.here, dir, .counting⟩ h.nextSource h.tree x) :
    (h'.processId = h.processId ∧ h'.here = h.here) ∧
      ∃ y p, x.run [.turn 0 .count, .turn 0 .create] = some y ∧
        Alone ⟨h.processId, h.here, dir, p⟩ h'.nextSource h'.tree y ∧
        (r = .ok none ∧ p = .counting ∨
          ∃ r', r = r'.map some ∧ Call.result? ⟨h.processId, h.here, dir, p⟩ = some r') := by
  obtain ⟨y, hy, hcounted⟩ := hx.turn (a := .count) rfl
  dsimp only at hcounted
  -- the second turn makes the file, or does not
  have hsecond : ∀ {after}, Call.turn ⟨h.processId, h.here, dir, .trying h.nextSource⟩
      (h.nextSource + 1) h.tree .create = some after → ∃ z,
        x.run [.turn 0 .count, .turn 0 .create] = some z ∧
        Alone ⟨h.processId, h.here, dir, after.1⟩ after.2.1 after.2.2 z := by
    intro after hturn
    obtain ⟨z, hz, halone⟩ := hcounted.turn hturn
    dsimp only at halone
    exact ⟨z, run_cons.mpr ⟨y, hy, run_cons.mpr ⟨z, hz, rfl⟩⟩, halone⟩
  rw [Run.trySource, run_bind, run_get] at hrun
  dsimp only at hrun
  split at hrun
  next t hnew =>
    cases hrun
    obtain ⟨z, hz, halone⟩ := hsecond (Call.turn_create_of_ok rfl hnew)
    exact ⟨⟨rfl, rfl⟩, z, _, hz, halone, .inr ⟨.ok _, rfl, rfl⟩⟩
  next fault hnew =>
    obtain ⟨z, hz, halone⟩ := hsecond (Call.turn_create_of_error rfl hnew)
    rw [run_bind, run_set] at hrun
    dsimp only at hrun halone
    split at hrun
    next hfault =>
      cases hrun
      rw [if_pos hfault] at halone
      exact ⟨⟨rfl, rfl⟩, z, _, hz, halone, .inl ⟨rfl, rfl⟩⟩
    next hfault =>
      cases hrun
      rw [if_neg hfault] at halone
      exact ⟨⟨rfl, rfl⟩, z, _, hz, halone, .inr ⟨.error _, rfl, rfl⟩⟩

/-- **Looking for a number** is two turns of a call for each that is
tried. -/
theorem Alone.createSource {dir : String} {fuel : Nat} {h h' : Host} {r : Except Failure String}
    (hrun : (createSource dir fuel).run h = (r, h'))
    (hx : Alone ⟨h.processId, h.here, dir, .counting⟩ h.nextSource h.tree x) :
    ∃ moves y p, x.run moves = some y ∧
      Alone ⟨h.processId, h.here, dir, p⟩ h'.nextSource h'.tree y ∧
      (Call.result? ⟨h.processId, h.here, dir, p⟩ = some r ∨
        p = .counting ∧ moves.countP (·.isTurnOf 0) = 2 * fuel) := by
  induction fuel generalizing h x with
  | zero =>
    cases hrun
    exact ⟨[], x, .counting, rfl, hx, .inr ⟨rfl, rfl⟩⟩
  | succ fuel ih =>
    rw [Run.createSource, run_bind] at hrun
    generalize htry : (Run.trySource dir).run h = first at hrun
    obtain ⟨r₁, h₁⟩ := first
    obtain ⟨⟨hprocess, hhere⟩, y, p, hy, halone, ⟨rfl, rfl⟩ | ⟨r', rfl, hr'⟩⟩ := hx.trySource htry
    · -- the next number is tried, from where this one has led
      rw [← hprocess, ← hhere] at halone ⊢
      obtain ⟨moves, z, p, hz, halone', hr⟩ := ih hrun halone
      refine ⟨[.turn 0 .count, .turn 0 .create] ++ moves, z, p, ?_, halone', hr.imp_right ?_⟩
      · rw [run_append, hy]
        exact hz
      · rintro ⟨rfl, hcount⟩
        refine ⟨rfl, ?_⟩
        rw [List.countP_append, hcount, Nat.mul_succ, Nat.add_comm]
        rfl
    · cases r' with
      | ok path =>
        cases hrun
        exact ⟨_, y, p, hy, halone, .inl hr'⟩
      | error e =>
        cases hrun
        exact ⟨_, y, p, hy, halone, .inl hr'⟩

/-- **A call that is alone** does what creating a source does, and the
looking for a number is never given up: the bound on the search is more
than the number of entries that can be in the way. -/
theorem createSource_alone {dir : String} {h h' : Host} {r : Except Failure String}
    {counters : Nat → Nat} (hcounter : counters h.processId = h.nextSource)
    (hrun : (createSource dir (h.tree.length + 1)).run h = (r, h')) :
    ∃ moves x c, (start h.tree counters).run (.call h.processId h.here dir :: moves) = some x ∧
      x.calls = [c] ∧ c.result? = some r ∧ x.counters h.processId = h'.nextSource ∧
      x.tree = h'.tree := by
  have hbegin : Alone ⟨h.processId, h.here, dir, .counting⟩ h.nextSource h.tree
      { start h.tree counters with calls := [⟨h.processId, h.here, dir, .counting⟩] } :=
    ⟨rfl, hcounter, rfl⟩
  obtain ⟨moves, x, p, hmoves, halone, hr⟩ := hbegin.createSource hrun
  have hall : (start h.tree counters).run (.call h.processId h.here dir :: moves) = some x :=
    run_cons.mpr ⟨_, rfl, hmoves⟩
  refine ⟨moves, x, _, hall, halone.calls, ?_, halone.counter, halone.tree⟩
  rcases hr with hr | ⟨rfl, hcount⟩
  · exact hr
  · -- too many turns were taken for one that is still to be
    have hbound := (sound_start h.tree counters).ahead_run hall 0
    have hc : x.calls[0]? = some ⟨h.processId, h.here, dir, .counting⟩ := by
      rw [halone.calls]
      rfl
    have hstart : ahead h.tree (start h.tree counters) 0 = 2 * h.tree.length + 2 := rfl
    rw [ahead_eq_of_calls hc, hstart, List.countP_cons, hcount] at hbound
    unfold turnsAhead at hbound
    dsimp only at hbound
    omega

/-- Creating a source does not fail because something is there. -/
theorem createSource_fault_ne {dir attempt : String} {fault : SystemFault} {h h' : Host}
    (hrun : (createSource dir (h.tree.length + 1)).run h = (.error (.system attempt fault), h')) :
    fault ≠ .alreadyExists := by
  obtain ⟨moves, x, c, hmoves, hcalls, hresult, -⟩ :=
    @createSource_alone dir h h' _ (fun _ => h.nextSource) rfl hrun
  have hc : x.calls[0]? = some c := by rw [hcalls]; rfl
  obtain ⟨n, fault, hrefused, hfailure⟩ := Call.result?_eq_error.mp hresult
  cases hfailure
  exact ((sound_start h.tree _).run hmoves).faults 0 c n fault hc hrefused

end Specimen.Run.Shared
