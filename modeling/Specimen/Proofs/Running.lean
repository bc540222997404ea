import Specimen.Host

/-!
# How a run goes

A run is a function of the host it begins with, and gives a result and
the host it ends with. What it does is told part by part: the second of
two parts begins with the host the first has left, unless the first
failed, and then the run is over (`Run.run_bind`). The lemmas here say
so for what all runs are made of; no proof about a run looks further
into it than they do.

Many parts do nothing but change files. What may be changed is then told
by a relation between the files before and after (`Run.Changes`), and
such a part in front of others needs no look at how it has ended.
-/

namespace Specimen.Run

variable {α β : Type} {h h' : Host} {r : Except Failure β}

@[simp] theorem run_get (h : Host) : (get : Run Host).run h = (.ok h, h) := rfl

@[simp] theorem run_set (h₁ h : Host) : (set h₁ : Run Unit).run h = (.ok (), h₁) := rfl

@[simp] theorem run_modify (f : Host → Host) (h : Host) :
    (modify f : Run Unit).run h = (.ok (), f h) := rfl

theorem run_ofExcept (x : Except Failure α) (h : Host) : (ofExcept x).run h = (x, h) := by
  cases x <;> rfl

/-- **A run of two parts.** -/
theorem run_bind (act : Run α) (next : α → Run β) (h : Host) :
    (act >>= next).run h = match act.run h with
      | (.ok a, h) => (next a).run h
      | (.error e, h) => (.error e, h) := by
  show (act.run >>= ExceptT.bindCont next) h = _
  show ExceptT.bindCont next (act.run h).1 (act.run h).2 = _
  obtain ⟨result, h₁⟩ := act.run h
  cases result <;> rfl

/-- How a run of two parts may have gone. -/
theorem bind_cases {act : Run α} {next : α → Run β} (hrun : (act >>= next).run h = (r, h')) :
    (∃ a h₁, act.run h = (.ok a, h₁) ∧ (next a).run h₁ = (r, h')) ∨
      ∃ e, act.run h = (.error e, h') ∧ r = .error e := by
  rw [run_bind] at hrun
  generalize act.run h = first at hrun ⊢
  obtain ⟨result, h₁⟩ := first
  cases result with
  | ok a => exact .inl ⟨a, h₁, rfl, hrun⟩
  | error e =>
    cases hrun
    exact .inr ⟨e, rfl, rfl⟩

theorem run_of_isOk (act : Run Unit) (h : Host) (hok : (act.run h).1.isOk = true) :
    act.run h = (.ok (), (act.run h).2) := by
  generalize act.run h = last at hok ⊢
  obtain ⟨result, h'⟩ := last
  cases result with
  | error e => cases hok
  | ok => rfl

theorem run_change (attempt : String) (op : FileTree → Place → Except SystemFault FileTree)
    (h : Host) : (change attempt op).run h = match op h.tree h.here with
      | .ok t => (.ok (), { h with tree := t })
      | .error fault => (.error (.system attempt fault), h) := by
  rw [change, run_bind, run_get]
  dsimp only
  cases op h.tree h.here <;> rfl

/-- Making directories. -/
theorem run_makeDirs (path : String) (h : Host) :
    (makeDirs path).run h = match h.tree.makeDirs h.here path with
      | (.ok (), t) => (.ok (), { h with tree := t })
      | (.error fault, t) => (.error (.system ("create dir: " ++ path) fault), { h with tree := t }) := by
  rw [makeDirs, run_bind, run_get]
  dsimp only
  obtain ⟨result, t⟩ := h.tree.makeDirs h.here path
  cases result <;> rfl

theorem run_allowed (attempt : String) (step : Step) (h : Host) :
    (allowed attempt step).run h = match h.refuses step with
      | none => (.ok (), h)
      | some fault => (.error (.system attempt fault), h) := by
  rw [allowed, run_bind, run_get]
  dsimp only
  cases h.refuses step <;> rfl

theorem run_start (attempt : String) (c : Invocation) (h : Host) :
    (start attempt c).run h = match h.execute c h.tree with
      | .ok o => (.ok o, { h with tree := o.tree, started := h.started ++ [c] })
      | .error fault => (.error (.system attempt fault), h) := by
  rw [start, run_bind, run_get]
  dsimp only
  cases h.execute c h.tree <;> rfl

theorem run_ensuring (act : Run α) (after : Host → Host) (h : Host) :
    (ensuring act after).run h = ((act.run h).1, after (act.run h).2) := rfl

/-! ## Parts that change files -/

/-- **A part that changes files**: what it does to them is allowed by a
relation, all else stays, and it fails only if the system refuses
something. -/
def Changes (R : FileTree → Place → FileTree → Prop) (act : Run Unit) : Prop :=
  ∀ h r h', act.run h = (r, h') →
    ∃ t, R h.tree h.here t ∧ h' = { h with tree := t } ∧
      (r = .ok () ∨ ∃ attempt fault, r = .error (.system attempt fault))

namespace Changes

variable {R : FileTree → Place → FileTree → Prop}

/-- Asking for a step changes nothing. -/
theorem allowed (hrefl : ∀ t here, R t here t) (attempt : String) (step : Step) :
    Changes R (allowed attempt step) := by
  intro h r h' hrun
  rw [run_allowed] at hrun
  refine ⟨h.tree, hrefl _ _, ?_⟩
  cases hstep : h.refuses step with
  | none =>
    rw [hstep] at hrun
    cases hrun
    exact ⟨rfl, .inl rfl⟩
  | some fault =>
    rw [hstep] at hrun
    cases hrun
    exact ⟨rfl, .inr ⟨attempt, fault, rfl⟩⟩

/-- A single change. -/
theorem change (hrefl : ∀ t here, R t here t) {attempt : String}
    {op : FileTree → Place → Except SystemFault FileTree}
    (hop : ∀ {t here t'}, op t here = .ok t' → R t here t') : Changes R (change attempt op) := by
  intro h r h' hrun
  rw [run_change] at hrun
  cases hchange : op h.tree h.here with
  | ok t =>
    rw [hchange] at hrun
    cases hrun
    exact ⟨t, hop hchange, rfl, .inl rfl⟩
  | error fault =>
    rw [hchange] at hrun
    cases hrun
    exact ⟨h.tree, hrefl _ _, rfl, .inr ⟨attempt, fault, rfl⟩⟩

/-- **A part that changes files and what follows**: either it is refused,
or what follows begins with files that were changed as is allowed. -/
theorem bind_cases {α : Type} {act : Run Unit} (hact : Changes R act) {next : Unit → Run α}
    {r : Except Failure α} (hrun : (act >>= next).run h = (r, h')) :
    (∃ t attempt fault, R h.tree h.here t ∧ h' = { h with tree := t } ∧
        r = .error (.system attempt fault)) ∨
      ∃ t, R h.tree h.here t ∧ (next ()).run { h with tree := t } = (r, h') := by
  rcases Run.bind_cases hrun with ⟨_, h₁, hfirst, hrest⟩ | ⟨e, hfirst, rfl⟩
  · obtain ⟨t, ht, rfl, -⟩ := hact _ _ _ hfirst
    exact .inr ⟨t, ht, hrest⟩
  · obtain ⟨t, ht, rfl, hr | ⟨attempt, fault, hr⟩⟩ := hact _ _ _ hfirst
    · cases hr
    · cases hr
      exact .inl ⟨t, attempt, fault, ht, rfl, rfl⟩

end Changes

end Specimen.Run
