import Specimen.Failure

/-!
# When a computation succeeds

Constructors that check what they are given are written as computations
that may fail. A computation of several steps succeeds when each of its
steps does, and a computation that can fail in more ways than one of its
steps succeeds when the step does.
-/

namespace Specimen

section

variable {ε α β : Type}

theorem bind_eq_ok {x : Except ε α} {f : α → Except ε β} {b : β} :
    x >>= f = .ok b ↔ ∃ a, x = .ok a ∧ f a = .ok b := by
  cases x with
  | error e => exact ⟨nofun, nofun⟩
  | ok a => exact ⟨fun h => ⟨a, rfl, h⟩, fun ⟨_, ha, h⟩ => Except.ok.inj ha ▸ h⟩

/-- A function of what a step gives. -/
theorem map_eq_ok {x : Except ε α} {f : α → β} {b : β} :
    f <$> x = .ok b ↔ ∃ a, x = .ok a ∧ f a = b := by
  cases x with
  | error e => exact ⟨nofun, nofun⟩
  | ok a =>
    refine ⟨fun h => ⟨a, rfl, Except.ok.inj h⟩, ?_⟩
    rintro ⟨a', ha, rfl⟩
    rw [Except.ok.inj ha]
    rfl

/-- A step fails, or what follows it does. -/
theorem bind_eq_error {x : Except ε α} {f : α → Except ε β} {e : ε} :
    x >>= f = .error e ↔ x = .error e ∨ ∃ a, x = .ok a ∧ f a = .error e := by
  cases x with
  | error e' =>
    refine ⟨fun h => .inl (congrArg _ (Except.error.inj h)), ?_⟩
    rintro (h | ⟨a, h, -⟩)
    · rw [Except.error.inj h]
      rfl
    · cases h
  | ok a =>
    refine ⟨fun h => .inr ⟨a, rfl, h⟩, ?_⟩
    rintro (h | ⟨b, hb, h⟩)
    · cases h
    · exact Except.ok.inj hb ▸ h

theorem map_eq_error {x : Except ε α} {f : α → β} {e : ε} :
    f <$> x = .error e ↔ x = .error e := by
  cases x with
  | error e' =>
    exact ⟨fun h => congrArg _ (Except.error.inj h), fun h => congrArg _ (Except.error.inj h)⟩
  | ok a => exact ⟨nofun, nofun⟩

theorem exists_eq_ok {x : Except ε α} : (∃ a, x = .ok a) ↔ ∀ e, x ≠ .error e := by
  cases x with
  | error e => exact ⟨fun ⟨_, h⟩ => (nomatch h), fun h => absurd rfl (h e)⟩
  | ok a => exact ⟨fun _ => nofun, fun _ => ⟨a, rfl⟩⟩

theorem pure_eq_ok {a b : α} : (pure a : Except ε α) = .ok b ↔ a = b :=
  ⟨Except.ok.inj, congrArg _⟩

theorem refuse_eq_ok {c : Prop} [Decidable c] {e : ε} {x : Except ε α} {a : α} :
    (if c then .error e else x) = .ok a ↔ ¬c ∧ x = .ok a := by
  split
  next h => exact ⟨nofun, fun hx => absurd h hx.1⟩
  next h => exact ⟨fun hx => ⟨h, hx⟩, And.right⟩

theorem refuse_eq_error {c : Prop} [Decidable c] {e e' : ε} {a : α} :
    (if c then .error e else .ok a : Except ε α) = .error e' ↔ c ∧ e' = e := by
  split
  next h => exact ⟨fun heq => ⟨h, (Except.error.inj heq).symm⟩, fun heq => congrArg _ heq.2.symm⟩
  next h => exact ⟨nofun, fun heq => absurd heq.1 h⟩

theorem forM_cons {a : α} {l : List α} {f : α → Except ε Unit} :
    (a :: l).forM f = f a >>= fun _ => l.forM f := rfl

theorem forM_append {l m : List α} {f : α → Except ε Unit} :
    (l ++ m).forM f = l.forM f >>= fun _ => m.forM f := List.forM_append

/-- What is asked of each item holds when each item passes. -/
theorem forM_eq_ok {l : List α} {f : α → Except ε Unit} :
    l.forM f = .ok () ↔ ∀ a ∈ l, f a = .ok () := by
  induction l with
  | nil => exact ⟨fun _ => nofun, fun _ => rfl⟩
  | cons a l ih =>
    rw [forM_cons, bind_eq_ok, ih, List.forall_mem_cons]
    exact ⟨fun ⟨_, ha, hl⟩ => ⟨ha, hl⟩, fun ⟨ha, hl⟩ => ⟨(), ha, hl⟩⟩

/-- **The error is that of the first item** that does not pass. -/
theorem forM_eq_error {l : List α} {f : α → Except ε Unit} {e : ε} :
    l.forM f = .error e ↔ ∃ before a after, l = before ++ a :: after ∧
      (∀ b ∈ before, f b = .ok ()) ∧ f a = .error e := by
  constructor
  · intro h
    induction l with
    | nil => cases h
    | cons a l ih =>
      rw [forM_cons] at h
      cases ha : f a with
      | error e' =>
        rw [ha] at h
        exact ⟨[], a, l, rfl, nofun, ha.trans h⟩
      | ok u =>
        rw [ha] at h
        obtain ⟨before, b, after, rfl, hbefore, hb⟩ := ih h
        exact ⟨a :: before, b, after, rfl, List.forall_mem_cons.mpr ⟨ha, hbefore⟩, hb⟩
  · rintro ⟨before, a, after, rfl, hbefore, ha⟩
    induction before with
    | nil =>
      rw [List.nil_append, forM_cons, ha]
      rfl
    | cons b before ih =>
      rw [List.forall_mem_cons] at hbefore
      rw [List.cons_append, forM_cons, hbefore.1]
      exact ih hbefore.2

/-- **The error of a fold is that of the first step** that fails, and the
steps before it have given what it starts from. With this, a list that is
checked by folding over it needs no induction of its own. -/
theorem foldlM_eq_error {step : β → α → Except ε β} {b : β} {l : List α} {e : ε} :
    l.foldlM step b = .error e ↔ ∃ before a after b', l = before ++ a :: after ∧
      before.foldlM step b = .ok b' ∧ step b' a = .error e := by
  constructor
  · intro h
    induction l generalizing b with
    | nil => cases h
    | cons a l ih =>
      rw [List.foldlM_cons] at h
      rcases bind_eq_error.mp h with ha | ⟨b', ha, hl⟩
      · exact ⟨[], a, l, b, rfl, rfl, ha⟩
      · obtain ⟨before, a', after, b'', rfl, hbefore, ha'⟩ := ih hl
        exact ⟨a :: before, a', after, b'', rfl,
          List.foldlM_cons.trans (bind_eq_ok.mpr ⟨b', ha, hbefore⟩), ha'⟩
  · rintro ⟨before, a, after, b', rfl, hbefore, ha⟩
    rw [List.foldlM_append, hbefore]
    exact List.foldlM_cons.trans (bind_eq_error.mpr (.inl ha))

end

/-- A step that can only fail with an error of its own kind. -/
theorem liftError_eq_ok {α : Type} {x : Except Error α} {a : α} :
    (liftM x : Except Failure α) = .ok a ↔ x = .ok a := by
  cases x with
  | error e => exact ⟨nofun, nofun⟩
  | ok b => exact ⟨fun h => congrArg _ (Except.ok.inj h), fun h => congrArg _ (Except.ok.inj h)⟩

end Specimen
