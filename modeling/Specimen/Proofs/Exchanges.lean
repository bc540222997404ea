import Mathlib.Data.List.Induction
import Mathlib.Data.List.Nodup
import Specimen.Proofs.DecodedParts
import Specimen.Proofs.Pieces
import Specimen.Report.Exchange

/-!
# Every report arrives

However writers and the reader of a report pipe come to move, each report
is passed on once, in order, and as it was written. What is written may
be cut anywhere on its way, in the middle of a line or of a character,
and the reader may be asked to stop while there is more in the pipe.

At any moment what was written is what the reader has taken and what is
in the pipe. Of the bytes taken, the lines that are finished were passed
on, and the listener has the rest (`Exchange.Sound`). Each move keeps
that (`Exchange.Sound.step`), and so do many (`Exchange.Sound.run`). As
nothing is written after the reader was asked to stop, and as it reads
until nothing is left after it has seen that, in the end everything was
taken: `Exchange.heard_of_run`. That it can always come to an end is
`Exchange.exists_run_ended`.
-/

namespace Specimen

/-! ## Pipes -/

namespace Pipe

variable {p : Pipe}

theorem readers_closeWriter (h : p.readers ≠ 0) : p.closeWriter.readers = p.readers := by
  rw [closeWriter, settle, if_neg fun hclosed => h hclosed.1]

/-- Reading opens and closes nothing. -/
theorem readers_of_read {n : Nat} {r : Read} {q : Pipe} (h : p.read n = (r, q)) :
    q.readers = p.readers := by
  have hq : (p.read n).2.readers = p.readers := by
    unfold read
    split
    · rfl
    split
    · split <;> rfl
    · rfl
  rwa [h] at hq

/-- **A read that gives no bytes** has found none. -/
theorem bytes_eq_nil_of_read {n : Nat} (hn : n ≠ 0)
    (h : ∀ b bs q, p.read n ≠ (.bytes (b :: bs), q)) : p.bytes = [] := by
  cases hbytes : p.bytes with
  | nil => rfl
  | cons b bs =>
    obtain ⟨k, rfl⟩ := Nat.exists_eq_succ_of_ne_zero hn
    refine absurd ?_ (h b (bs.take k) { p with bytes := bs.drop k })
    rw [read, if_neg hn, hbytes]
    rfl

end Pipe

namespace Report

/-- **A line has the same message with its end and without.** -/
theorem ofLine?_lineEnd (line : List UInt8) :
    Message.ofLine? (lenientChars (line ++ [0x0a])) = Message.ofLine? (lenientChars line) := by
  have hwords : words (lenientChars line ++ ['\n']) = words (lenientChars line) := by
    rw [words, words, List.foldr_append]
    rfl
  have hnone : lenientChars [] = [] := rfl
  rw [lenientChars_append_lineEnd, hnone, Message.ofLine?, Message.ofLine?, hwords]

/-! ## Messages and calls -/

theorem messagesOf_append (as bs : List (List UInt8)) :
    messagesOf (as ++ bs) = messagesOf as ++ messagesOf bs :=
  List.filterMap_append

theorem deliverToAll_append (n : Nat) (as bs : List Message) :
    deliverToAll n (as ++ bs) = deliverToAll n as ++ deliverToAll n bs :=
  List.flatMap_append

/-- **A subscriber is called with each message once**, in order. -/
theorem map_filter_deliverToAll {n i : Nat} (hi : i < n) (ms : List Message) :
    ((deliverToAll n ms).filter fun call => call.1 == i).map Prod.snd = ms := by
  induction ms with
  | nil => rfl
  | cons m ms ih =>
    have hone : (List.range n).filter (fun j => j == i) = [i] := by
      rw [List.filter_beq, List.count_eq_one_of_mem List.nodup_range (List.mem_range.mpr hi)]
      rfl
    have hcall : (((List.range n).map fun j => (j, m)).filter fun call => call.1 == i)
        = [(i, m)] := by
      rw [List.filter_map]
      exact congrArg (List.map fun j => (j, m)) hone
    rw [deliverToAll, List.flatMap_cons, List.filter_append, hcall, List.map_append,
      ← deliverToAll, ih]
    rfl

/-- **The messages of some bytes** are those of the lines that are
finished, and of what stands behind them. -/
theorem messages_eq (bytes : List UInt8) :
    messages bytes
      = messagesOf (cut isLineEnd bytes).dropLast ++ messagesOf [lastPiece isLineEnd bytes] := by
  rw [messages, ← messagesOf_append, dropLast_append_lastPiece]

/-- **A listener goes on where the lines have ended**: it gives the
messages of the lines that more bytes finish. -/
theorem Listener.receive_of_pending {l : Listener} {taken : List UInt8}
    (hl : l.pending = lastPiece isLineEnd taken) (bytes : List UInt8) :
    messagesOf (cut isLineEnd (taken ++ bytes)).dropLast
        = messagesOf (cut isLineEnd taken).dropLast ++ (l.receive bytes).1 ∧
      (l.receive bytes).2.pending = lastPiece isLineEnd (taken ++ bytes) := by
  constructor
  · rw [cut_append, List.dropLast_append_of_ne_nil (cut_ne_nil _ _), messagesOf_append, ← hl]
    rfl
  · rw [lastPiece_append, ← hl]
    rfl

/-- The messages a listener gives of chunks, once it has taken some
bytes. -/
theorem Listener.hear_of_pending {l : Listener} {taken : List UInt8}
    (hl : l.pending = lastPiece isLineEnd taken) (chunks : List (List UInt8)) :
    messagesOf (cut isLineEnd taken).dropLast ++ l.hear chunks = messages (taken ++ chunks.flatten) := by
  induction chunks generalizing l taken with
  | nil =>
    rw [List.flatten_nil, List.append_nil, messages_eq, ← hl]
    rfl
  | cons chunk chunks ih =>
    obtain ⟨hmessages, hpending⟩ := receive_of_pending hl chunk
    rw [List.flatten_cons, ← List.append_assoc, ← ih hpending, hmessages, List.append_assoc]
    rfl

/-- **Where chunks end does not matter** to what a listener hears. -/
theorem Listener.hear_start (chunks : List (List UInt8)) :
    Listener.start.hear chunks = messages chunks.flatten :=
  @hear_of_pending .start [] rfl chunks

namespace Exchange

/-! ## What moves keep -/

/-- **A sound exchange**, of which the reader has taken some bytes: the
lines that are finished were passed on, and all of them once the reader
is out of its loop, which it leaves only with the pipe empty and nobody
writing any more. -/
structure Sound (taken : List UInt8) (x : Exchange) : Prop where
  /-- The reader has the pipe open. -/
  readers : x.pipe.readers ≠ 0
  /-- The listener has what stands behind the lines. -/
  pending : x.listener.pending = lastPiece isLineEnd taken
  /-- The calls made and to be made are those for the lines. -/
  calls : x.heard ++ x.calls = deliverToAll x.subscribers
    (if x.stage = .done then messages taken else messagesOf (cut isLineEnd taken).dropLast)
  /-- The last round is begun when the reader was asked to stop. -/
  stopped : x.stage = .reading true ∨ x.stage = .done → x.stopped = true
  /-- The loop is left when the pipe is empty. -/
  drained : x.stage = .done → x.pipe.bytes = []

variable {x y : Exchange} {taken : List UInt8}

/-- A reader in its loop may go to another place in it. -/
theorem Sound.goTo (hx : Sound taken x) (hloop : x.stage ≠ .done) {stage : Stage}
    (hstage : stage ≠ .done) (hlast : stage = .reading true → x.stopped = true) :
    Sound taken { x with stage } where
  readers := hx.readers
  pending := hx.pending
  calls := by
    rw [if_neg hstage]
    exact hx.calls.trans (congrArg _ (if_neg hloop))
  stopped h := h.elim hlast fun hdone => absurd hdone hstage
  drained h := absurd h hstage

/-- An exchange may go on with another pipe that the reader has open, and
that is no fuller if the reader is out of its loop. -/
theorem Sound.withPipe (hx : Sound taken x) {p : Pipe} (hreaders : p.readers ≠ 0)
    (hdrained : x.stage = .done → p.bytes = []) : Sound taken { x with pipe := p } :=
  ⟨hreaders, hx.pending, hx.calls, hx.stopped, hdrained⟩

/-- **A reader that has made its calls goes on with what it reads.** -/
theorem Sound.receive (hx : Sound taken x) (hcalls : x.calls = []) {last : Bool}
    (hstage : x.stage = .reading last) (bytes : List UInt8) :
    Sound (taken ++ bytes) (x.receive bytes) := by
  have hloop : x.stage ≠ .done := by
    rw [hstage]
    nofun
  obtain ⟨hmessages, hpending⟩ := Listener.receive_of_pending hx.pending bytes
  have hheard := hx.calls
  rw [hcalls, List.append_nil, if_neg hloop] at hheard
  refine ⟨hx.readers, hpending, ?_, hx.stopped, hx.drained⟩
  show x.heard ++ _ = deliverToAll x.subscribers (if x.stage = .done then _ else _)
  rw [if_neg hloop, hmessages, deliverToAll_append, hheard]
  rfl

/-- **A reader that finds nothing left** goes round again or ends. -/
theorem Sound.drain (hx : Sound taken x) (hcalls : x.calls = []) {last : Bool}
    (hstage : x.stage = .reading last) (hempty : x.pipe.bytes = []) :
    Sound taken (x.drain last) := by
  have hloop : x.stage ≠ .done := by
    rw [hstage]
    nofun
  cases last with
  | false => exact hx.goTo hloop nofun nofun
  | true =>
    have hheard := hx.calls
    rw [hcalls, List.append_nil, if_neg hloop] at hheard
    refine ⟨hx.readers, hx.pending, ?_, fun _ => hx.stopped (.inl hstage), fun _ => hempty⟩
    show x.heard ++ _ = deliverToAll x.subscribers (messages taken)
    rw [messages_eq, deliverToAll_append, hheard, ← hx.pending]
    rfl

/-- **A move keeps an exchange sound.** What the reader takes and leaves
in the pipe is what was there and what the move writes: only a read takes
anything, and all other moves add to the pipe or leave it as it is. -/
theorem Sound.step (hx : Sound taken x) {m : Move} (hstep : x.step m = some y) :
    ∃ bytes, Sound (taken ++ bytes) y ∧ bytes ++ y.pipe.bytes = x.pipe.bytes ++ m.written ∧
      y.subscribers = x.subscribers := by
  -- all moves but one take nothing
  have hnone : Sound taken y → y.pipe.bytes = x.pipe.bytes ++ m.written →
      y.subscribers = x.subscribers → ∃ bytes, Sound (taken ++ bytes) y ∧
        bytes ++ y.pipe.bytes = x.pipe.bytes ++ m.written ∧ y.subscribers = x.subscribers :=
    fun hy hbytes hsubscribers => ⟨[], (List.append_nil taken).symm ▸ hy, hbytes, hsubscribers⟩
  cases m with
  | openWriter =>
    cases hstep
    exact hnone (hx.withPipe hx.readers hx.drained) (List.append_nil _).symm rfl
  | closeWriter =>
    rw [Exchange.step] at hstep
    split at hstep
    next => cases hstep
    next =>
      cases hstep
      have hbytes := Pipe.bytes_closeWriter hx.readers
      refine hnone (hx.withPipe ?_ ?_) (hbytes.trans (List.append_nil _).symm) rfl
      · rw [Pipe.readers_closeWriter hx.readers]
        exact hx.readers
      · rw [hbytes]
        exact hx.drained
  | write bytes =>
    rw [Exchange.step] at hstep
    split at hstep
    next => cases hstep
    next hmay =>
      cases hstep
      refine hnone (hx.withPipe hx.readers fun hdone => ?_) rfl rfl
      exact absurd (.inl (hx.stopped (.inr hdone))) hmay
  | stop =>
    cases hstep
    exact hnone ⟨hx.readers, hx.pending, hx.calls, fun _ => rfl, hx.drained⟩
      (List.append_nil _).symm rfl
  | look =>
    rw [Exchange.step] at hstep
    split at hstep
    next hstage hcalls =>
      cases hstep
      refine hnone (hx.goTo (hstage ▸ nofun) ?_ ?_) (List.append_nil _).symm rfl
      · split <;> nofun
      · split
        next hstopped => exact fun _ => hstopped
        next => nofun
    next => cases hstep
  | giveUp =>
    rw [Exchange.step] at hstep
    split at hstep
    next hstage hcalls =>
      cases hstep
      exact hnone (hx.goTo (hstage ▸ nofun) nofun nofun) (List.append_nil _).symm rfl
    next => cases hstep
  | wake =>
    rw [Exchange.step] at hstep
    split at hstep
    next hstage hcalls =>
      split at hstep
      next =>
        cases hstep
        exact hnone (hx.goTo (hstage ▸ nofun) nofun nofun) (List.append_nil _).symm rfl
      next => cases hstep
    next => cases hstep
  | read n =>
    rw [Exchange.step] at hstep
    split at hstep
    next last hstage hcalls =>
      split at hstep
      next => cases hstep
      next hn =>
        split at hstep
        next b bs p hread =>
          cases hstep
          have hreaders : p.readers ≠ 0 := by
            rw [Pipe.readers_of_read hread]
            exact hx.readers
          have hpipe : Sound taken { x with pipe := p } :=
            hx.withPipe hreaders fun hdone => by rw [hstage] at hdone; cases hdone
          exact ⟨b :: bs, hpipe.receive hcalls hstage _,
            (Pipe.bytes_of_read hread).trans (List.append_nil _).symm, rfl⟩
        next hread =>
          cases hstep
          have hempty : x.pipe.bytes = [] :=
            Pipe.bytes_eq_nil_of_read (fun hzero => hn (.inl hzero)) hread
          have hsame : (x.drain last).pipe = x.pipe ∧ (x.drain last).subscribers = x.subscribers := by
            cases last <;> exact ⟨rfl, rfl⟩
          exact hnone (hx.drain hcalls hstage hempty)
            ((congrArg Pipe.bytes hsame.1).trans (List.append_nil _).symm) hsame.2
    next => cases hstep
  | interrupt =>
    rw [Exchange.step] at hstep
    split at hstep
    next =>
      cases hstep
      exact hnone hx (List.append_nil _).symm rfl
    next => cases hstep
  | call =>
    rw [Exchange.step] at hstep
    split at hstep
    next c rest hcalls =>
      cases hstep
      refine hnone ⟨hx.readers, hx.pending, ?_, hx.stopped, hx.drained⟩ (List.append_nil _).symm rfl
      rw [List.append_assoc, List.singleton_append, ← hcalls]
      exact hx.calls
    next => cases hstep

/-- **Moves keep an exchange sound.** -/
theorem Sound.run (hx : Sound taken x) {moves : List Move} (hrun : x.run moves = some y) :
    ∃ bytes, Sound (taken ++ bytes) y ∧
      bytes ++ y.pipe.bytes = x.pipe.bytes ++ moves.flatMap Move.written ∧
      y.subscribers = x.subscribers := by
  induction moves generalizing x taken with
  | nil =>
    cases hrun
    exact ⟨[], (List.append_nil taken).symm ▸ hx, (List.append_nil _).symm, rfl⟩
  | cons m moves ih =>
    rw [Exchange.run, List.foldlM_cons] at hrun
    obtain ⟨z, hz, hrest⟩ := Option.bind_eq_some_iff.mp hrun
    obtain ⟨first, hfirst, hbytes, hsubscribers⟩ := hx.step hz
    obtain ⟨more, hmore, hbytes', hsubscribers'⟩ := ih hfirst hrest
    refine ⟨first ++ more, List.append_assoc .. ▸ hmore, ?_, hsubscribers'.trans hsubscribers⟩
    rw [List.append_assoc, hbytes', ← List.append_assoc, hbytes, List.append_assoc,
      List.flatMap_cons]

theorem sound_begin (p : Pipe) (subscribers : Nat) : Sound [] (begin p subscribers) where
  readers := Nat.succ_ne_zero _
  pending := rfl
  calls := rfl
  stopped := nofun
  drained := nofun

/-! ## What is heard -/

/-- What is heard in an exchange that has ended. -/
theorem heard_of_ended {p : Pipe} {n : Nat} {moves : List Move} {x : Exchange}
    (hrun : (begin p n).run moves = some x) (hended : x.Ended) :
    x.heard = deliverToAll n (messages (p.bytes ++ moves.flatMap Move.written)) := by
  obtain ⟨taken, hx, hstream, hsubscribers⟩ := (sound_begin p n).run hrun
  obtain ⟨hdone, hnone⟩ := hended
  have hstream : taken ++ x.pipe.bytes = p.bytes ++ moves.flatMap Move.written := hstream
  have hsubscribers : x.subscribers = n := hsubscribers
  have hcalls := hx.calls
  rw [hx.drained hdone, List.append_nil] at hstream
  rwa [hnone, List.append_nil, if_pos hdone, List.nil_append, hstream, hsubscribers] at hcalls

/-- **Every report arrives**, at every subscriber and once, in the order of
the stream, and at one subscriber after the other before the next does:
that is what was heard when the reader has ended, and what is heard before is
the beginning of it. Where the stream was cut on its way, and when the
reader was asked to stop, makes no difference. -/
theorem heard_of_run {p : Pipe} {n : Nat} {moves : List Move}
    (hrun : (begin p n).run moves = some x) :
    let stream := p.bytes ++ moves.flatMap Move.written
    let reports := (cut isLineEnd stream).filterMap fun line => Message.ofLine? (lenientChars line)
    x.heard <+: deliverToAll n reports ∧
      (x.Ended → x.heard = deliverToAll n reports ∧
        ∀ i < n, (x.heard.filter fun call => call.1 == i).map Prod.snd = reports) := by
  intro stream reports
  obtain ⟨taken, hx, hstream, hsubscribers⟩ := (sound_begin p n).run hrun
  have hstream : taken ++ x.pipe.bytes = stream := hstream
  have hsubscribers : x.subscribers = n := hsubscribers
  have hcalls := hx.calls
  rw [hsubscribers] at hcalls
  constructor
  · refine (List.prefix_append x.heard x.calls).trans ?_
    rw [hcalls]
    split
    next hdone =>
      rw [hx.drained hdone, List.append_nil] at hstream
      rw [List.nil_append, hstream]
      exact List.prefix_rfl
    next =>
      -- the lines that are finished stay, whatever comes after them
      have hreports : reports = messagesOf (cut isLineEnd taken).dropLast
          ++ messages (lastPiece isLineEnd taken ++ x.pipe.bytes) := by
        show messagesOf (cut isLineEnd stream) = _
        rw [← hstream, cut_append, messagesOf_append]
        rfl
      rw [hreports, deliverToAll_append]
      exact List.prefix_append _ _
  · rintro ⟨hdone, hnone⟩
    rw [hx.drained hdone, List.append_nil] at hstream
    rw [hnone, List.append_nil, if_pos hdone, List.nil_append, hstream] at hcalls
    have hheard : x.heard = deliverToAll n reports := hcalls
    exact ⟨hheard, fun i hi => by rw [hheard, map_filter_deliverToAll hi]⟩

/-- Two writers, the first of which closes the pipe in the middle of a
character. The reader is asked to stop before it has seen the rest, which
ends without a line's end. -/
theorem heard_of_run_split :
    let moves : List Move :=
      [.openWriter, .write [0x41, 0x20, 0xc3], .look, .wake, .read 4096, .read 4096, .closeWriter,
        .look, .giveUp, .openWriter, .write [0xa9, 0x0a, 0x42], .stop, .look, .read 2, .call, .call,
        .interrupt, .read 4096, .read 1, .call, .call]
    let first : Message := ⟨.unknown, "A", ["é"]⟩
    let second : Message := ⟨.unknown, "B", []⟩
    ∃ x, (begin .fresh 2).run moves = some x ∧ x.Ended ∧
      x.heard = [(0, first), (1, first), (0, second), (1, second)] := by
  intro moves first second
  have hends : ((begin .fresh 2).run moves).map (fun x => decide x.Ended) = some true := by
    decide +kernel
  obtain ⟨x, hrun, hended⟩ := Option.map_eq_some_iff.mp hends
  have hended : x.Ended := of_decide_eq_true hended
  have hreports : (cut isLineEnd (Pipe.fresh.bytes ++ moves.flatMap Move.written)).filterMap
      (fun line => Message.ofLine? (lenientChars line)) = [first, second] := by
    decide +kernel
  obtain ⟨hheard, -⟩ := (heard_of_run hrun).2 hended
  rw [hreports] at hheard
  exact ⟨x, hrun, hended, hheard⟩

/-! ## The end of the reader -/

/-- **The reader can end** by moves of its own. -/
def CanEnd (x : Exchange) : Prop :=
  ∃ moves y, x.run moves = some y ∧ y.Ended ∧ moves.flatMap Move.written = []

/-- It can if it can after a move that writes nothing. -/
theorem CanEnd.of_step {z : Exchange} (hz : CanEnd z) {m : Move} (hm : m.written = [])
    (hstep : x.step m = some z) : CanEnd x := by
  obtain ⟨moves, y, hrun, hended, hmoves⟩ := hz
  refine ⟨m :: moves, y, ?_, hended, ?_⟩
  · rw [Exchange.run, List.foldlM_cons, hstep]
    exact hrun
  · rw [List.flatMap_cons, hm, hmoves]
    rfl

/-- It can if it can once the calls are made. -/
theorem CanEnd.of_calls {calls : List (Nat × Message)}
    (hx : ∀ heard, CanEnd { x with calls := [], heard }) : CanEnd { x with calls } := by
  induction calls generalizing x with
  | nil => exact hx x.heard
  | cons c calls ih => exact (@ih { x with heard := x.heard ++ [c] } hx).of_step (m := .call) rfl rfl

/-- A reader in its last round can end when nothing is left. -/
theorem canEnd_drain (x : Exchange) : CanEnd (x.drain true) :=
  CanEnd.of_calls (x := { x with stage := .done }) fun _ => ⟨[], _, rfl, ⟨rfl, rfl⟩, rfl⟩

/-- What reading one byte does. -/
theorem step_read_one {last : Bool} (hstage : x.stage = .reading last) (hcalls : x.calls = []) :
    x.step (.read 1) = match x.pipe.read 1 with
      | (.bytes (b :: bs), p) => some ({ x with pipe := p }.receive (b :: bs))
      | _ => some (x.drain last) := by
  rw [Exchange.step]
  split
  next last' hlast' _ =>
    cases hstage.symm.trans hlast'
    exact if_neg (by decide)
  next hno => exact absurd hcalls (hno last hstage)

/-- A reader that reads byte by byte can end if it can when nothing is
left. -/
theorem CanEnd.of_reading {last : Bool} (hstage : x.stage = .reading last) (hcalls : x.calls = [])
    (hleft : ∀ y : Exchange, y.stopped = x.stopped → y.calls = [] → CanEnd (y.drain last)) :
    CanEnd x := by
  induction hbytes : x.pipe.bytes generalizing x with
  | nil =>
    refine (hleft x rfl hcalls).of_step (m := .read 1) rfl ?_
    rw [step_read_one hstage hcalls, Pipe.read, hbytes]
    cases x.pipe.writers <;> rfl
  | cons b bs ih =>
    have hstep : x.step (.read 1)
        = some ({ x with pipe := { x.pipe with bytes := bs } }.receive [b]) := by
      rw [step_read_one hstage hcalls, Pipe.read, hbytes]
      rfl
    let rest : Exchange :=
      { x with pipe := { x.pipe with bytes := bs }, listener := (x.listener.receive [b]).2 }
    have hrest : CanEnd ({ x with pipe := { x.pipe with bytes := bs } }.receive [b]) :=
      CanEnd.of_calls (x := rest) fun heard => ih hstage rfl hleft rfl
    exact hrest.of_step rfl hstep

/-- A reader that was asked to stop can end from the beginning of its
loop. -/
theorem CanEnd.of_looking (hstopped : x.stopped = true) (hstage : x.stage = .looking)
    (hcalls : x.calls = []) : CanEnd x := by
  have hstep : x.step .look = some { x with stage := .reading true } := by
    rw [Exchange.step, hstage, hcalls, hstopped]
    rfl
  have hlast : CanEnd { x with stage := .reading true } :=
    .of_reading rfl hcalls fun y _ _ => canEnd_drain y
  exact hlast.of_step rfl hstep

/-- **A reader that is asked to stop can end**, whatever it does at that
moment and whoever has the pipe open: it makes the calls it still has to
make, empties the pipe once more, and does not wait for a writer to close
it. -/
theorem exists_run_ended (x : Exchange) : ∃ moves y,
    x.run (.stop :: moves) = some y ∧ y.Ended ∧ moves.flatMap Move.written = [] := by
  suffices hend : CanEnd { x with stopped := true } from hend
  obtain ⟨pipe, stopped, stage, listener, calls, subscribers, heard⟩ := x
  refine CanEnd.of_calls (x := ⟨pipe, true, stage, listener, [], subscribers, heard⟩) fun heard => ?_
  cases stage with
  | looking => exact .of_looking rfl rfl rfl
  | waiting => exact (CanEnd.of_looking rfl rfl rfl).of_step (m := .giveUp) rfl rfl
  | reading last =>
    refine .of_reading rfl rfl fun y hstopped hcalls => ?_
    cases last with
    | false => exact .of_looking hstopped rfl hcalls
    | true => exact canEnd_drain y
  | done => exact ⟨[], _, rfl, ⟨rfl, rfl⟩, rfl⟩

end Exchange

end Report

end Specimen
