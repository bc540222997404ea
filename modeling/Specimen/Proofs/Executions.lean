import Specimen.Proofs.PlacesTouched
import Specimen.Proofs.ProgramRuns

/-!
# What comes of running a program

The run of a program is told here from end to end: which files are
touched before the program is started, what it finds, and what is done
with what it has left (`Host.Executed`). There are two ways it may go.
Either the system refuses something, and then the program was not
started and nobody has heard anything. Or the program finds its pipe for
reports fresh, with a reader, and once it has ended everything that it
has put there is delivered to the callbacks, before the pipe is removed.

As for how a run ends, this is told part by part. But the listener has
something to deliver only if the pipe it opens is the one that was made,
so what is said of the inner parts takes that pipe for given, and the
parts around have to leave it alone.
-/

namespace Specimen

/-- The bytes that a program has left in its pipe for reports. -/
def Host.reported (h : Host) (exe : String) (o : Outcome) : List UInt8 :=
  ((o.tree.pipe? h.here (Channel.report.path exe)).map Pipe.bytes).getD []

/-- The paths of a program's pipes. -/
def pipePaths (exe : String) : List String :=
  [Channel.report.path exe, Channel.output.path exe]

theorem mem_pipePaths (exe : String) (c : Channel) : ∀ path ∈ [c.path exe], path ∈ pipePaths exe := by
  intro path hpath
  rw [List.mem_singleton.mp hpath]
  cases c
  case report => exact List.mem_cons_self
  case output => exact List.mem_cons_of_mem _ List.mem_cons_self

/-- **How the run of a program goes**: the result, and the host it is left
on. -/
inductive Host.Executed (exe : String) (ty : Ty) (h : Host) :
    Except Failure (Option Value) → Host → Prop where
  /-- The system has refused something, and the program was not
  started. -/
  | refused {t : FileTree} {attempt : String} {fault : SystemFault}
      (before : h.tree.Touches h.here (pipePaths exe) t) :
      Executed exe ty h (.error (.system attempt fault)) { h with tree := t }
  /-- The program has found its pipe for reports fresh, and what it has
  put there was delivered. -/
  | ended {t t' : FileTree} {o : Outcome} (before : h.tree.Touches h.here (pipePaths exe) t)
      (pipe : t.pipe? h.here (Channel.report.path exe) = some Pipe.fresh.openReader)
      (execute : h.execute (invocation exe) t = .ok o)
      (behind : o.tree.Touches h.here (pipePaths exe) t') :
      Executed exe ty h (h.verdict exe ty o) { h with
        tree := t'
        started := h.started ++ [invocation exe]
        heard := h.heard ++ Report.deliver h.callbacks (Report.messages (h.reported exe o)) }

/-- What is touched before makes no difference. -/
theorem Host.Executed.after {exe : String} {ty : Ty} {h h' : Host}
    {r : Except Failure (Option Value)} {t : FileTree}
    (ht : h.tree.Touches h.here (pipePaths exe) t)
    (hexecuted : Host.Executed exe ty { h with tree := t } r h') : h.Executed exe ty r h' := by
  cases hexecuted with
  | refused before => exact .refused (ht.trans before)
  | ended before pipe execute behind => exact .ended (ht.trans before) pipe execute behind

namespace Run

variable {exe : String} {ty : Ty}

/-- **A part that touches nothing but the ends of some paths.** -/
def Touching (paths : List String) (act : Run Unit) : Prop :=
  Changes (fun t here t' => t.Touches here paths t') act

namespace Touching

theorem allowed (paths : List String) (attempt : String) (step : Step) :
    Touching paths (allowed attempt step) :=
  Changes.allowed (fun _ _ => .refl _ _ _) attempt step

theorem openReader (path : String) : Touching [path] (openReader path) :=
  Changes.change (fun _ _ => .refl _ _ _) .openReader

theorem openWriter (path : String) : Touching [path] (openWriter path) :=
  Changes.change (fun _ _ => .refl _ _ _) .openWriter

theorem removeStale (path : String) : Touching [path] (removeStale path) :=
  Changes.removeStale (fun _ _ => .refl _ _ _) .remove

end Touching

/-! ## The part that starts the program -/

/-- **How the innermost part goes**: it touches one of the pipes at most
before it starts the program. -/
inductive Produced (exe : String) (ty : Ty) (h : Host) :
    Except Failure (Option Value) → Host → Prop where
  /-- The system has refused something. -/
  | refused {t : FileTree} {attempt : String} {fault : SystemFault}
      (before : h.tree.Touches h.here [Channel.output.path exe] t) :
      Produced exe ty h (.error (.system attempt fault)) { h with tree := t }
  /-- The program has ended. -/
  | ended {t : FileTree} {o : Outcome}
      (before : h.tree.Touches h.here [Channel.output.path exe] t)
      (execute : h.execute (invocation exe) t = .ok o) :
      Produced exe ty h (h.verdict exe ty o)
        { h with tree := o.tree, started := h.started ++ [invocation exe] }

/-- **A part that starts the program**, whatever host it begins with. -/
def Produces (exe : String) (ty : Ty) (act : Run (Option Value)) : Prop :=
  ∀ h r h', act.run h = (r, h') → Produced exe ty h r h'

/-- Touching the other pipe first makes no difference. -/
theorem Touching.produces_bind {act : Run Unit} {next : Unit → Run (Option Value)}
    (hact : Touching [Channel.output.path exe] act) (hnext : Produces exe ty (next ())) :
    Produces exe ty (act >>= next) := by
  intro h r h' hrun
  rcases Changes.bind_cases hact hrun with ⟨t, attempt, fault, ht, rfl, rfl⟩ | ⟨t, ht, hrest⟩
  · exact .refused ht
  · cases hnext _ _ _ hrest with
    | refused before => exact .refused (ht.trans before)
    | ended before execute => exact .ended (ht.trans before) execute

/-- The innermost part starts the program. -/
theorem produces_produce : Produces exe ty (produce exe ty) := by
  refine (Touching.allowed _ _ _).produces_bind ((Touching.openReader _).produces_bind
    ((Touching.allowed _ _ _).produces_bind ((Touching.openWriter _).produces_bind ?_)))
  intro h r h' hrun
  rw [run_bind, run_start] at hrun
  cases hexecute : h.execute (invocation exe) h.tree with
  | error fault =>
    rw [← invocation, hexecute] at hrun
    cases hrun
    exact .refused (.refl _ _ _)
  | ok o =>
    rw [← invocation, hexecute] at hrun
    cases (run_awaitValue h o).symm.trans hrun
    exact .ended (.refl _ _ _) hexecute

/-! ## The part that is listened to -/

/-- What stopping a listener does that was started before. -/
theorem stopListening_cons (path : String) (h : Host) :
    stopListening path { h with listening := path :: h.listening } = { h with
      heard := h.heard ++ Report.deliver h.callbacks (Report.messages (pipeBytes h path)) } := by
  show Host.mk _ _ _ _ _ _ _ _ _ ((path :: h.listening).erase path) _ = _
  rw [List.erase_cons_head]
  rfl

/-- **The listener delivers what the program has put into the pipe**, if
it opens a fresh one. It is stopped only when the program has ended, so
all bytes are in the pipe by then, and the last round takes them. -/
theorem executed_withListener {act : Run (Option Value)} (hact : Produces exe ty act)
    {h h' : Host} {r : Except Failure (Option Value)}
    (hpipe : h.tree.pipe? h.here (Channel.report.path exe) = some .fresh)
    (hrun : (withListener exe act).run h = (r, h')) : h.Executed exe ty r h' := by
  rw [withListener, run_bind, run_allowed] at hrun
  cases hstep : h.refuses (.openReader .report) with
  | some fault =>
    rw [hstep] at hrun
    cases hrun
    exact .refused (.refl _ _ _)
  | none =>
    rw [hstep] at hrun
    dsimp only at hrun
    rw [run_bind, openReader, run_change] at hrun
    cases hopen : h.tree.openReader h.here (Channel.report.path exe) with
    | error fault =>
      rw [hopen] at hrun
      cases hrun
      exact .refused (.refl _ _ _)
    | ok t =>
      rw [hopen] at hrun
      dsimp only at hrun
      rw [run_bind, run_modify] at hrun
      dsimp only at hrun
      rw [run_ensuring] at hrun
      have ht : h.tree.Touches h.here (pipePaths exe) t :=
        (FileTree.Touches.openReader hopen).mono (mem_pipePaths exe .report)
      have hopened := FileTree.pipe?_openReader hpipe hopen
      generalize hinside : act.run _ = inside at hrun
      obtain ⟨result, h₁⟩ := inside
      cases hrun
      -- the program finds the pipe as it was opened
      have hkept : ∀ {t₁ : FileTree}, t.Touches h.here [Channel.output.path exe] t₁ →
          t₁.pipe? h.here (Channel.report.path exe) = some Pipe.fresh.openReader := fun ht₁ =>
        (ht₁.pipe?_eq (d := .report) nofun).trans hopened
      cases hact _ _ _ hinside with
      | @refused t₁ attempt fault before =>
        have hbytes : pipeBytes { h with tree := t₁ } (Channel.report.path exe) = [] := by
          show ((t₁.pipe? h.here _).map Pipe.bytes).getD [] = []
          rw [hkept before]
          rfl
        rw [stopListening_cons (Channel.report.path exe) { h with tree := t₁ }, hbytes]
        show h.Executed exe ty _ { h with tree := t₁, heard := h.heard ++ [] }
        rw [List.append_nil]
        exact .refused (ht.trans (before.mono (mem_pipePaths exe .output)))
      | @ended t₁ o before execute =>
        rw [stopListening_cons (Channel.report.path exe)
          { h with tree := o.tree, started := h.started ++ [invocation exe] }]
        exact .ended (ht.trans (before.mono (mem_pipePaths exe .output))) (hkept before) execute
          (.refl _ _ _)

/-! ## The parts that have pipes -/

/-- Removing a pipe afterwards makes no difference. -/
theorem executed_unlink {h h' : Host} {r : Except Failure (Option Value)}
    (hexecuted : h.Executed exe ty r h') (c : Channel) :
    h.Executed exe ty r (unlink (c.path exe) h') := by
  have hunlink : h'.tree.Touches h'.here (pipePaths exe) (unlink (c.path exe) h').tree := by
    unfold unlink
    split
    next t hremove => exact (FileTree.Touches.remove hremove).mono (mem_pipePaths exe c)
    next => exact .refl _ _ _
  rw [unlink_eq]
  generalize (unlink (c.path exe) h').tree = t at hunlink
  cases hexecuted with
  | refused before => exact .refused (before.trans hunlink)
  | ended before pipe execute behind => exact .ended before pipe execute (behind.trans hunlink)

/-- **Making a new pipe** touches the end of its path, and leaves a fresh
pipe unless the system refuses something. -/
theorem renewPipe_touches {c : Channel} {h h' : Host} {r : Except Failure Unit}
    (hrun : (renewPipe exe c).run h = (r, h')) :
    ∃ t, h.tree.Touches h.here [c.path exe] t ∧ h' = { h with tree := t } ∧
      ((r = .ok () ∧ t.pipe? h.here (c.path exe) = some .fresh) ∨
        ∃ attempt fault, r = .error (.system attempt fault)) := by
  rcases Changes.bind_cases (Touching.allowed [c.path exe] _ _) hrun with
    ⟨t, attempt, fault, ht, rfl, rfl⟩ | ⟨t₁, ht₁, hrun⟩
  · exact ⟨t, ht, rfl, .inr ⟨attempt, fault, rfl⟩⟩
  rcases Changes.bind_cases (Touching.removeStale _) hrun with
    ⟨t, attempt, fault, ht, rfl, rfl⟩ | ⟨t₂, ht₂, hrun⟩
  · exact ⟨t, ht₁.trans ht, rfl, .inr ⟨attempt, fault, rfl⟩⟩
  rcases Changes.bind_cases (Touching.allowed [c.path exe] _ _) hrun with
    ⟨t, attempt, fault, ht, rfl, rfl⟩ | ⟨t₃, ht₃, hrun⟩
  · exact ⟨t, (ht₁.trans ht₂).trans ht, rfl, .inr ⟨attempt, fault, rfl⟩⟩
  have hbefore := (ht₁.trans ht₂).trans ht₃
  unfold makePipe at hrun
  split at hrun
  next =>
    cases hrun
    exact ⟨t₃, hbefore, rfl, .inr ⟨_, _, rfl⟩⟩
  next =>
    rw [run_change] at hrun
    split at hrun
    next t hmake =>
      cases hrun
      exact ⟨t, hbefore.trans (.makePipe hmake), rfl, .inl ⟨rfl, FileTree.pipe?_makePipe hmake⟩⟩
    next fault _ =>
      cases hrun
      exact ⟨t₃, hbefore, rfl, .inr ⟨_, fault, rfl⟩⟩

/-- **A part that has a pipe** goes as what is inside goes with a fresh
one. If the pipe cannot be made, nothing inside is done. -/
theorem executed_withPipe {act : Run (Option Value)} {c : Channel} {h h' : Host}
    {r : Except Failure (Option Value)}
    (hact : ∀ t, h.tree.Touches h.here [c.path exe] t →
      t.pipe? h.here (c.path exe) = some .fresh →
      ∀ r h', act.run { h with tree := t } = (r, h') →
        Host.Executed exe ty { h with tree := t } r h')
    (hrun : (withPipe exe c act).run h = (r, h')) : h.Executed exe ty r h' := by
  rcases bind_cases hrun with ⟨_, h₁, hrenew, hrest⟩ | ⟨e, hrenew, rfl⟩
  · obtain ⟨t, ht, rfl, ⟨-, hfresh⟩ | ⟨attempt, fault, hr⟩⟩ := renewPipe_touches hrenew
    · rw [run_ensuring] at hrest
      cases hrest
      exact executed_unlink ((hact t ht hfresh _ _ rfl).after (ht.mono (mem_pipePaths exe c))) c
    · cases hr
  · obtain ⟨t, ht, rfl, ⟨hr, -⟩ | ⟨attempt, fault, hr⟩⟩ := renewPipe_touches hrenew
    · cases hr
    · cases hr
      exact .refused (ht.mono (mem_pipePaths exe c))

/-- **How the run of a program goes**: it is refused before the program is
started, or the program finds its pipes and what it puts into the one
for reports is delivered. -/
theorem executed_runProgram {h h' : Host} {r : Except Failure (Option Value)}
    (hrun : (runProgram exe ty).run h = (r, h')) : h.Executed exe ty r h' := by
  refine executed_withPipe (fun t _ hfresh r₁ h₁ hrun₁ => ?_) hrun
  refine executed_withPipe (fun t₁ ht₁ _ r₂ h₂ hrun₂ => ?_) hrun₁
  refine executed_withListener produces_produce ?_ hrun₂
  -- making the other pipe leaves this one fresh
  exact (ht₁.pipe?_eq (d := .report) nofun).trans hfresh

end Run

end Specimen
