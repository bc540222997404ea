import Specimen.Proofs.Capturing
import Specimen.Proofs.PipeFiles
import Specimen.Proofs.Running

/-!
# However a program's run ends

Between the first pipe that is made for a program and the value that it
gives there are many steps, and each of them may be refused. However far
a run gets, it leaves no pipe and no listener behind, and a program that
was waited for is judged by its exit before its value.

A run is made of parts that are put around each other, each with
something done behind it. So what it leaves is told part by part: for
the innermost, which starts the program, and then for each part around
it, given what is inside (`Run.Runs.withListener`, `Run.Runs.withPipe`).
Nothing has to be known of where inside the run has ended. Together they
tell it of the whole, and what it means is `Run.runProgram_ends`.
-/

namespace Specimen

/-! ## What is kept of a stream -/

namespace Stream

/-- **What is kept of the bytes in a stream** are the first ones, however
they arrive, and whether there were more. -/
theorem Holds.capture {s : Stream} {bs : List UInt8} (hs : s.Holds bs) (cap : Nat) :
    s.capture cap = .ok ⟨bs.take cap, decide (cap < bs.length)⟩ := by
  rw [capture_eq, hs, ← List.append_nil (bs.map _), keepFrom_bytes, Capture.add_start]
  rfl

/-- A failure behind some bytes is the capture's. -/
theorem capture_failure (cap : Nat) (bs : List UInt8) (text : String) :
    (ofBytes bs ++ [Event.failure text]).capture cap = .error (.io text) := by
  have hs : (ofBytes bs ++ [Event.failure text]).signals = bs.map .byte ++ [.failure text] := rfl
  rw [capture_eq, hs, keepFrom_bytes]
  rfl

end Stream

/-- **The text that is shown of a program's stream**: its first bytes, and
a mark if there were more. -/
def Host.shown (h : Host) (s : Captured) (bytes : List UInt8) : String :=
  if h.refuses (.capture s) = none then
    shownText (bytes.take captureLimit) (captureLimit < bytes.length)
  else ""

theorem Host.keptText_stream (h : Host) (s : Captured) (bytes : List UInt8) :
    Run.keptText (h.stream (.capture s) bytes) = h.shown s bytes := by
  unfold Run.keptText Host.stream Host.shown
  cases h.refuses (.capture s) with
  | none => rw [(Stream.holds_ofBytes bytes).capture]; rfl
  | some fault => rw [Stream.capture_failure]; rfl

/-! ## What a run may leave -/

/-- How a program is started. -/
def invocation (exe : String) : Invocation :=
  ⟨utf8Bytes exe, [Channel.report.path exe, Channel.output.path exe]⟩

/-- The bytes that a program has left in its output pipe. -/
def Host.written (h : Host) (exe : String) (o : Outcome) : List UInt8 :=
  ((o.tree.pipe? h.here (Channel.output.path exe)).map Pipe.bytes).getD []

/-- **What comes of a program that was started**: it has to be waited for,
and must not have crashed. -/
def Host.verdict (h : Host) (exe : String) (ty : Ty) (o : Outcome) : Except Failure (Option Value) :=
  match h.refuses .wait with
  | some fault => .error (.system "wait for program" fault)
  | none =>
    if o.ending.code ≠ 0 then
      .error (.error (.programCrashed o.ending.code (h.shown .stdout o.stdout)
        (h.shown .stderr o.stderr)))
    else (ty.read (h.stream .readValue (h.written exe o))).1.mapError .error

/-- **A run that was refused** has changed the files at most, and those
tidily. -/
def Host.Refused {α : Type} (h : Host) (r : Except Failure α) (h' : Host) : Prop :=
  ∃ t attempt fault, h.tree.Tidy t ∧ h' = { h with tree := t } ∧
    r = .error (.system attempt fault)

/-- **A host on which a program was run**, with the result: it listens to
what it listened to, no pipe is new unless programs make some, and the
result is the verdict on the program if that was started. -/
structure Host.Ran (exe : String) (ty : Ty) (h : Host) (r : Except Failure (Option Value))
    (h' : Host) : Prop where
  /-- The working directory stays. -/
  workingDir : h'.workingDir = h.workingDir
  /-- The listeners are those of before. -/
  listening : h'.listening = h.listening
  /-- The files are tidy if programs are. -/
  tidy : (∀ c t o, h.execute c t = .ok o → t.Tidy o.tree) → h.tree.Tidy h'.tree
  /-- The result is the system's refusal or the verdict. -/
  result : (h'.started = h.started ∧ ∃ attempt fault, r = .error (.system attempt fault)) ∨
    ∃ t o, h.execute (invocation exe) t = .ok o ∧
      h'.started = h.started ++ [invocation exe] ∧ r = h.verdict exe ty o

namespace Host

variable {exe : String} {ty : Ty} {h h' : Host} {r : Except Failure (Option Value)}

theorem Refused.ran (hrefused : h.Refused r h') : h.Ran exe ty r h' := by
  obtain ⟨t, attempt, fault, htidy, rfl, rfl⟩ := hrefused
  exact ⟨rfl, rfl, fun _ => htidy, .inl ⟨rfl, attempt, fault, rfl⟩⟩

/-- What was done tidily before a refusal does not matter. -/
theorem Refused.after {α : Type} {r : Except Failure α} {t : FileTree} (htidy : h.tree.Tidy t)
    (hrefused : Refused { h with tree := t } r h') : h.Refused r h' := by
  obtain ⟨t', attempt, fault, htidy', rfl, rfl⟩ := hrefused
  exact ⟨t', attempt, fault, htidy.trans htidy', rfl, rfl⟩

theorem Ran.after {t : FileTree} (htidy : h.tree.Tidy t)
    (hran : Ran exe ty { h with tree := t } r h') : h.Ran exe ty r h' :=
  ⟨hran.workingDir, hran.listening, fun hprograms => htidy.trans (hran.tidy hprograms), hran.result⟩

end Host

namespace Run

/-! ## Parts that only prepare -/

/-- **A part that prepares**: it changes the files at most, and those
tidily, and fails only if the system refuses something. -/
def Prepares (act : Run Unit) : Prop := Changes (fun t _ t' => t.Tidy t') act

/-- Removing what was left changes files as removing them does. -/
theorem Changes.removeStale {R : FileTree → Place → FileTree → Prop}
    (hrefl : ∀ t here, R t here t) {path : String}
    (hremove : ∀ {t here t'}, t.remove here path = .ok t' → R t here t') :
    Changes R (removeStale path) := by
  intro h r h' hrun
  rw [Run.removeStale, run_bind, run_get] at hrun
  dsimp only at hrun
  split at hrun
  next t ht =>
    cases hrun
    exact ⟨t, hremove ht, rfl, .inl rfl⟩
  next =>
    cases hrun
    exact ⟨h.tree, hrefl _ _, rfl, .inl rfl⟩
  next fault _ _ =>
    cases hrun
    exact ⟨h.tree, hrefl _ _, rfl, .inr ⟨_, fault, rfl⟩⟩

theorem Prepares.allowed (attempt : String) (step : Step) : Prepares (allowed attempt step) :=
  Changes.allowed (fun _ _ => .refl _) attempt step

theorem Prepares.change {attempt : String} {op : FileTree → Place → Except SystemFault FileTree}
    (hop : ∀ {t here t'}, op t here = .ok t' → t.Tidy t') : Prepares (change attempt op) :=
  Changes.change (fun _ _ => .refl _) hop

theorem Prepares.openReader (path : String) : Prepares (openReader path) :=
  .change FileTree.Tidy.openReader

theorem Prepares.openWriter (path : String) : Prepares (openWriter path) :=
  .change FileTree.Tidy.openWriter

theorem Prepares.removeStale (path : String) : Prepares (removeStale path) :=
  Changes.removeStale (fun _ _ => .refl _) .remove

/-- **A part that prepares and what follows**: either it is refused, or
what follows begins with files that are tidy. -/
theorem Prepares.bind_cases {α : Type} {act : Run Unit} (hact : Prepares act)
    {next : Unit → Run α} {h h' : Host} {r : Except Failure α}
    (hrun : (act >>= next).run h = (r, h')) :
    h.Refused r h' ∨ ∃ t, h.tree.Tidy t ∧ (next ()).run { h with tree := t } = (r, h') :=
  Changes.bind_cases hact hrun

/-! ## Parts that run a program -/

/-- **A part that runs a program**, whatever host it begins with. -/
def Runs (exe : String) (ty : Ty) (act : Run (Option Value)) : Prop :=
  ∀ h r h', act.run h = (r, h') → h.Ran exe ty r h'

variable {exe : String} {ty : Ty}

theorem Prepares.runs_bind {act : Run Unit} {next : Unit → Run (Option Value)}
    (hact : Prepares act) (hnext : Runs exe ty (next ())) : Runs exe ty (act >>= next) := by
  intro h r h' hrun
  rcases hact.bind_cases hrun with hrefused | ⟨t, htidy, hrest⟩
  · exact hrefused.ran
  · exact (hnext _ _ _ hrest).after htidy

/-- A program that is waited for is judged. -/
theorem run_awaitValue (h : Host) (o : Outcome) :
    (awaitValue exe ty o).run { h with tree := o.tree, started := h.started ++ [invocation exe] }
      = (h.verdict exe ty o,
          { h with tree := o.tree, started := h.started ++ [invocation exe] }) := by
  rw [awaitValue, run_bind, run_get, Host.verdict]
  dsimp only
  rw [run_bind, run_allowed]
  dsimp only
  cases h.refuses .wait with
  | some fault => rfl
  | none =>
    dsimp only
    rw [Host.keptText_stream, Host.keptText_stream]
    split
    next => rfl
    next =>
      rw [run_ofExcept]
      rfl

/-- **The innermost part** starts the program, and judges it. -/
theorem runs_produce : Runs exe ty (produce exe ty) := by
  refine (Prepares.allowed _ _).runs_bind ((Prepares.openReader _).runs_bind
    ((Prepares.allowed _ _).runs_bind ((Prepares.openWriter _).runs_bind ?_)))
  intro h r h' hrun
  rw [run_bind, run_start] at hrun
  cases hexecute : h.execute (invocation exe) h.tree with
  | error fault =>
    rw [← invocation, hexecute] at hrun
    cases hrun
    exact Host.Refused.ran ⟨h.tree, _, fault, .refl _, rfl, rfl⟩
  | ok o =>
    rw [← invocation, hexecute] at hrun
    cases (run_awaitValue h o).symm.trans hrun
    exact ⟨rfl, rfl, fun hprograms => hprograms _ _ o hexecute, .inr ⟨_, o, hexecute, rfl, rfl⟩⟩

/-! ## Parts around others -/

theorem unlink_eq (path : String) (h : Host) :
    unlink path h = { h with tree := (unlink path h).tree } := by
  unfold unlink
  split <;> rfl

theorem within_unlink (path : String) (h : Host) : (unlink path h).tree.Within h.tree := by
  unfold unlink
  split
  next t hremove =>
    obtain ⟨dir, name, e, -, -, -, -, rfl⟩ := FileTree.remove_eq_ok.mp hremove
    exact .erase _ _
  next => exact .refl _

theorem tidy_unlink (path : String) (h : Host) : h.tree.Tidy (unlink path h).tree := by
  unfold unlink
  split
  next t hremove => exact .remove hremove
  next => exact .refl _

/-- **A pipe that is removed is gone**: it is at no place any more that
the path leads to. -/
theorem get?_unlink {h : Host} {c : Channel} {place : Place} {p : Pipe}
    (hfind : h.tree.find h.here (c.path exe) = .ok (place, .pipe p)) :
    (unlink (c.path exe) h).tree.get? place = none := by
  obtain ⟨l, hlocate, rfl, hget, hadmits⟩ := FileTree.find_eq_ok.mp hfind
  obtain ⟨dir, rfl⟩ := Channel.locate_path_eq hlocate
  have hremove : h.tree.remove h.here (c.path exe)
      = .ok (h.tree.erase (dir ++ [Channel.stem exe ++ c.suffix])) :=
    FileTree.remove_eq_ok.mpr ⟨dir, _, _, hlocate, hadmits.1, hget, nofun, rfl⟩
  rw [unlink, hremove]
  exact FileTree.get?_erase_self (List.concat_ne_nil _ _) _

/-- **The path of a pipe that is removed leads to none.** -/
theorem pipe?_unlink (exe : String) (c : Channel) (h : Host) :
    (unlink (c.path exe) h).tree.pipe? h.here (c.path exe) = none := by
  refine Option.eq_none_iff_forall_ne_some.mpr fun p hp => ?_
  obtain ⟨place, hfind⟩ := FileTree.pipe?_eq_some.mp hp
  obtain ⟨-, -, -, hget, -⟩ := FileTree.find_eq_ok.mp hfind
  rw [get?_unlink ((within_unlink _ h).find hfind)] at hget
  cases hget

/-- Making a new pipe is refused, or leaves a pipe at the name that the
path leads to, and no other that was not there. -/
theorem renewPipe_cases {c : Channel} {h h' : Host} {r : Except Failure Unit}
    (hrun : (renewPipe exe c).run h = (r, h')) :
    h.Refused r h' ∨ ∃ t dir name, r = .ok () ∧ h' = { h with tree := t } ∧
      t.locate h.here (c.path exe) = .ok (.named dir name false) ∧
      FileTree.checkName name = .ok () ∧ FileTree.DirsIn h.tree t ∧
      ∀ place p, t.get? place = some (.pipe p) → place = dir ++ [name] ∨
        ∃ q, h.tree.get? place = some (.pipe q) := by
  rcases (Prepares.allowed _ _).bind_cases hrun with hrefused | ⟨t₁, htidy₁, hrun⟩
  · exact .inl hrefused
  rcases (Prepares.removeStale _).bind_cases hrun with hrefused | ⟨t₂, htidy₂, hrun⟩
  · exact .inl (hrefused.after htidy₁)
  rcases (Prepares.allowed _ _).bind_cases hrun with hrefused | ⟨t₃, htidy₃, hrun⟩
  · exact .inl ((hrefused.after htidy₂).after htidy₁)
  have htidy := (htidy₁.trans htidy₂).trans htidy₃
  unfold makePipe at hrun
  split at hrun
  next n _ =>
    cases hrun
    exact .inl ⟨t₃, _, _, htidy, rfl, rfl⟩
  next =>
    rw [run_change] at hrun
    cases hmake : t₃.makePipe (Host.here { h with tree := t₃ }) (c.path exe) with
    | error fault =>
      rw [hmake] at hrun
      cases hrun
      exact .inl ⟨t₃, _, fault, htidy, rfl, rfl⟩
    | ok t =>
      rw [hmake] at hrun
      cases hrun
      obtain ⟨dir, name, hlocate, hname, hnone, rfl⟩ := FileTree.makePipe_eq_ok hmake
      have hkeeps := FileTree.Keeps.insert_of_none hnone (.pipe .fresh)
      refine .inr ⟨_, dir, name, rfl, rfl, FileTree.locate_of_dirsIn hkeeps.dirsIn hlocate, hname,
        fun place hdir => hkeeps.dirsIn place (htidy.dirs place hdir), fun place p hp => ?_⟩
      by_cases hplace : place = dir ++ [name]
      · exact .inl hplace
      · rw [FileTree.get?_insert_of_ne hplace] at hp
        exact .inr (htidy.pipes place p hp)

/-- **A part that has a pipe** runs a program if what is inside does. If
the pipe cannot be made nothing is started, and otherwise the pipe is
removed behind what is inside, whatever comes of that. -/
theorem Runs.withPipe {act : Run (Option Value)} (hact : Runs exe ty act) (c : Channel) :
    Runs exe ty (withPipe exe c act) := by
  intro h r h' hrun
  rcases bind_cases hrun with ⟨_, h₁, hrenew, hrest⟩ | ⟨e, hrenew, rfl⟩
  · rw [run_ensuring] at hrest
    generalize hinside : act.run h₁ = inside at hrest
    obtain ⟨result, h₂⟩ := inside
    cases hrest
    obtain ⟨t, attempt, fault, -, -, hr⟩ | ⟨t, dir, name, -, rfl, hlocate, hname, hdirs, hpipes⟩ :=
      renewPipe_cases hrenew
    · cases hr
    obtain ⟨hworkingDir, hlistening, htidy, hresult⟩ := hact _ _ _ hinside
    have hunlink := unlink_eq (c.path exe) h₂
    refine ⟨?_, ?_, fun hprograms => ?_, ?_⟩
    · rw [hunlink]; exact hworkingDir
    · rw [hunlink]; exact hlistening
    · have htidy := htidy hprograms
      refine ⟨fun place hdir => (tidy_unlink _ h₂).dirs _ (htidy.dirs _ (hdirs _ hdir)),
        fun place p hp => ?_⟩
      have hp₂ := within_unlink _ h₂ place _ hp
      obtain ⟨q, hq⟩ := htidy.pipes place p hp₂
      rcases hpipes place q hq with rfl | hthere
      · -- the pipe is where the path leads, which it has been removed from
        have hhere : h₂.here = h.here := congrArg Path.names hworkingDir
        have hlocate₂ : h₂.tree.locate h₂.here (c.path exe) = .ok (.named dir name false) :=
          hhere ▸ FileTree.locate_of_dirsIn htidy.dirs hlocate
        have hfind : h₂.tree.find h₂.here (c.path exe) = .ok (dir ++ [name], .pipe p) :=
          FileTree.find_eq_ok.mpr ⟨_, hlocate₂, rfl, hp₂, hname, nofun⟩
        rw [get?_unlink hfind] at hp
        cases hp
      · exact hthere
    · rw [hunlink]; exact hresult
  · rcases renewPipe_cases hrenew with ⟨t, attempt, fault, htidy, rfl, hr⟩ | ⟨t, dir, name, hr, -⟩
    · cases hr
      exact Host.Refused.ran ⟨t, attempt, fault, htidy, rfl, rfl⟩
    · cases hr

/-- **A part that is listened to** runs a program if what is inside
does. -/
theorem Runs.withListener {act : Run (Option Value)} (hact : Runs exe ty act) :
    Runs exe ty (withListener exe act) := by
  refine (Prepares.allowed _ _).runs_bind ((Prepares.openReader _).runs_bind ?_)
  intro h r h' hrun
  rw [run_bind, run_modify] at hrun
  dsimp only at hrun
  rw [run_ensuring] at hrun
  generalize hinside : act.run { h with
    listening := Channel.report.path exe :: h.listening } = inside at hrun
  obtain ⟨result, h₁⟩ := inside
  cases hrun
  obtain ⟨hworkingDir, hlistening, htidy, hresult⟩ := hact _ _ _ hinside
  refine ⟨hworkingDir, ?_, htidy, hresult⟩
  show h₁.listening.erase _ = h.listening
  rw [hlistening]
  exact List.erase_cons_head ..

theorem run_withPipe {act : Run (Option Value)} {c : Channel} {h h₁ : Host}
    (hrenew : (renewPipe exe c).run h = (.ok (), h₁)) :
    (withPipe exe c act).run h = ((act.run h₁).1, unlink (c.path exe) (act.run h₁).2) := by
  rw [withPipe, run_bind, hrenew]
  rfl

theorem here_unlink (path : String) (h : Host) : (unlink path h).here = h.here := by
  rw [unlink_eq]
  rfl

/-- **A pipe that was made is not there afterwards.** -/
theorem pipe?_withPipe {act : Run (Option Value)} {c : Channel} {h h₁ : Host}
    (hrenew : (renewPipe exe c).run h = (.ok (), h₁)) :
    let h' := ((withPipe exe c act).run h).2
    h'.tree.pipe? h'.here (c.path exe) = none := by
  rw [run_withPipe hrenew]
  show (unlink _ _).tree.pipe? (unlink _ _).here _ = none
  rw [here_unlink]
  exact pipe?_unlink ..

theorem runs_runProgram (exe : String) (ty : Ty) : Runs exe ty (runProgram exe ty) :=
  (runs_produce.withListener.withPipe .output).withPipe .report

end Run

end Specimen
