import Specimen.Proofs.Exchanges
import Specimen.Proofs.Executions

/-!
# Who is told of a program's reports

Whoever registers a **callback** for an event is to be told of all that a
program reports of it, and of nothing else. Reports go a long way: the
program puts bytes into a pipe, a listener takes them out as they come
and puts lines together, and the message of each line is dispatched to
the callbacks of its event. Nothing must be lost on that way, least of
all when the program crashes, since its last reports say why.

A run has two sides, and the main result (`Run.heard_of_runProgram`)
speaks of both. As the run of a program goes, its reports are delivered
behind it, whatever comes of the program, and each message to just the
callbacks of its event, in the order they were registered. And it does
not matter when the listener reads: any exchange over the pipe that the
program found, in which the program's bytes are written, can end once
the listener is asked to stop, and what its one subscriber hears,
dispatched in that order, comes to the same.
-/

namespace Specimen

namespace Report

/-! ## Dispatching messages -/

/-- **The calls for a message**: every callback of its event, by the number
it was registered under. -/
def callsFor (callbacks : List Callback) (m : Message) : List (Nat × Message) :=
  (callbacks.zipIdx.filter fun c => c.1.event = m.event).map fun c => (c.2, m)

/-- A message that no callback breaks down on reaches all of its event. -/
theorem deliverFrom_eq {callbacks : List Callback} {m : Message}
    (hsound : ∀ c ∈ callbacks, c.breaksOn m = false) (first : Nat) :
    deliverFrom first m callbacks = (((callbacks.zipIdx first).filter fun c =>
      c.1.event = m.event).map fun c => (c.2, m), false) := by
  induction callbacks generalizing first with
  | nil => rfl
  | cons c callbacks ih =>
    obtain ⟨hc, hrest⟩ := List.forall_mem_cons.mp hsound
    rw [deliverFrom, ih hrest, List.zipIdx_cons, List.filter_cons]
    by_cases hevent : c.event = m.event
    · rw [if_pos hevent, hc, if_neg Bool.false_ne_true, if_pos (decide_eq_true hevent)]
      rfl
    · rw [if_neg hevent, if_neg (by simpa using hevent)]

/-- **Messages that no callback breaks down on are all delivered.** -/
theorem deliver_eq {callbacks : List Callback}
    (hsound : ∀ c ∈ callbacks, ∀ m, c.breaksOn m = false) (ms : List Message) :
    deliver callbacks ms = ms.flatMap (callsFor callbacks) := by
  induction ms with
  | nil => rfl
  | cons m ms ih =>
    rw [deliver, deliverFrom_eq (fun c hc => hsound c hc m), List.flatMap_cons, ← ih]
    rfl

namespace Exchange

/-- **A single subscriber that dispatches what it hears** makes the calls
for the messages. -/
theorem flatMap_heard {moves : List Move} {x : Exchange}
    (hrun : (begin .fresh 1).run moves = some x) (hended : x.Ended)
    (calls : Message → List (Nat × Message)) :
    (x.heard.flatMap fun call => calls call.2)
      = (messages (moves.flatMap Move.written)).flatMap calls := by
  rw [heard_of_ended hrun hended, deliverToAll, List.flatMap_assoc]
  exact List.flatMap_congr fun m _ => List.append_nil _

end Exchange

end Report

namespace Run

open Report

/-- **Who is told of a program's reports.** A program that was not started
has told nobody anything. The reports of any other are the messages of
the lines that it has put into its pipe, which it found fresh: whatever
comes of it, by the end of its run each message was passed to the
callbacks of its event and to no other, one message after the other. So
it is with every exchange over such a pipe in which its bytes are
written, and such an exchange can end whenever the listener is asked to
stop. -/
theorem heard_of_runProgram (exe : String) (ty : Ty) (h : Host)
    (hsound : ∀ c ∈ h.callbacks, ∀ m, c.breaksOn m = false) :
    let r := ((runProgram exe ty).run h).1
    let h' := ((runProgram exe ty).run h).2
    (h'.started = h.started ∧ h'.heard = h.heard ∧
        ∃ attempt fault, r = .error (.system attempt fault)) ∨
      ∃ t o, h.execute (invocation exe) t = .ok o ∧
        h'.started = h.started ++ [invocation exe] ∧ r = h.verdict exe ty o ∧
        t.pipe? h.here (Channel.report.path exe) = some Pipe.fresh.openReader ∧
        h'.heard = h.heard ++ (messages (h.reported exe o)).flatMap (callsFor h.callbacks) ∧
        ∀ moves x, (Exchange.begin .fresh 1).run moves = some x →
          moves.flatMap Move.written = h.reported exe o →
          (x.Ended → h'.heard = h.heard ++ x.heard.flatMap fun call =>
            callsFor h.callbacks call.2) ∧
          ∃ more y, x.run (.stop :: more) = some y ∧ y.Ended ∧
            more.flatMap Move.written = [] := by
  intro r h'
  have hexecuted : h.Executed exe ty r h' := executed_runProgram rfl
  generalize r = r, h' = h' at hexecuted
  cases hexecuted with
  | refused before => exact .inl ⟨rfl, rfl, _, _, rfl⟩
  | @ended t t' o before pipe execute behind =>
    refine .inr ⟨t, o, execute, rfl, rfl, pipe, ?_, fun moves x hrun hwritten => ⟨?_, ?_⟩⟩
    · exact congrArg (h.heard ++ ·) (deliver_eq hsound _)
    · intro hended
      rw [Exchange.flatMap_heard hrun hended, hwritten]
      exact congrArg (h.heard ++ ·) (deliver_eq hsound _)
    · exact x.exists_run_ended

/-- A program that reports and then crashes, with two callbacks for one
event and one for unknown ones: the last line was not finished, and an
empty one says nothing. -/
theorem heard_of_runProgram_crashed :
    let text := "PROGRESS_PUSH a\n\nX"
    let h : Host := ⟨FileTree.insert ["p"] .program [], "/", [],
      fun _ t => .ok ⟨t.changePipe (Path.names "/") (Channel.report.path "/p") fun p =>
        p.write (utf8Bytes text), [], [], 256⟩,
      fun _ => none, 0, 0, [⟨.progressPush, fun _ => false⟩, ⟨.unknown, fun _ => false⟩,
        ⟨.progressPush, fun _ => false⟩], [], [], []⟩
    (∀ c ∈ h.callbacks, ∀ m, c.breaksOn m = false) ∧
    ((runProgram "/p" .int).run h).1 = .error (.error (.programCrashed 1 "" "")) ∧
    ((runProgram "/p" .int).run h).2.heard
      = [(0, ⟨.progressPush, "PROGRESS_PUSH", ["a"]⟩), (2, ⟨.progressPush, "PROGRESS_PUSH", ["a"]⟩),
        (1, ⟨.unknown, "X", []⟩)] := by
  intro text h
  have hsound : ∀ c ∈ h.callbacks, ∀ m, c.breaksOn m = false := by
    intro c hc m
    rcases List.mem_cons.mp hc with rfl | hc
    · rfl
    rcases List.mem_pair.mp hc with rfl | rfl <;> rfl
  have hstarted : ((runProgram "/p" .int).run h).2.started = [invocation "/p"] := by
    decide +kernel
  refine ⟨hsound, ?_⟩
  rcases heard_of_runProgram "/p" .int h hsound with
    ⟨hnone, -⟩ | ⟨t, o, ho, -, hr, hpipe, hheard, -⟩
  · rw [hstarted] at hnone
    cases hnone
  · have hbytes : h.reported "/p" o = utf8Bytes text := by
      cases ho
      exact congrArg (fun p => (p.map Pipe.bytes).getD [])
        (FileTree.pipe?_changePipe hpipe fun p => p.write (utf8Bytes text))
    rw [hbytes] at hheard
    refine ⟨hr.trans ?_, hheard.trans (by decide +kernel)⟩
    have hcode : o.ending.code = 1 := by
      have hstatus : o.status = 256 := by cases ho; rfl
      rw [Outcome.ending, hstatus]
      decide +kernel
    have hshown : h.shown .stdout o.stdout = "" ∧ h.shown .stderr o.stderr = "" := by
      have hstreams : o.stdout = [] ∧ o.stderr = [] := by cases ho; exact ⟨rfl, rfl⟩
      rw [hstreams.1, hstreams.2]
      decide +kernel
    have hcrashed : o.ending.code ≠ 0 := by
      rw [hcode]
      decide
    rw [Host.verdict]
    show (if o.ending.code ≠ 0 then _ else _) = _
    rw [if_pos hcrashed, hcode, hshown.1, hshown.2]
    rfl

end Run

end Specimen
