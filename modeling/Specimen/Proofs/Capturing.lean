import Specimen.Proofs.Chunking

/-!
# What is kept of a stream

Of what a program writes, the first bytes are kept, and whether there were
more. A stream is read to its end for that, in reads of some size, and each
of them takes up room that the next one does not have. None of that can be
seen in the result: to take one chunk after the other is to take both at
once (`Stream.Capture.add_add`), whether the limit lies in the first, in the
second or between them.

So a loop of reads (`Stream.captureFrom`) can be told by the signals alone,
one by one (`Stream.told_captureFrom`), and so can `Stream.capture`, which
takes whole chunks (`Stream.capture_eq`). What comes of it is
`Stream.capture_exact`.
-/

namespace Specimen.Stream

/-! ## One read -/

/-- **What a read gives.** No bytes are an end. -/
inductive Read where
  /-- Some bytes. -/
  | bytes (bs : List UInt8)
  /-- It was interrupted. -/
  | interrupted
  /-- It failed. -/
  | failed (text : String)

/-- **Reads at most `limit` bytes** of what arrives next, and gives back the
rest of the stream. -/
def read (limit : Nat) : Stream → Read × Stream
  | [] => (.bytes [], [])
  | .bytes [] :: rest => read limit rest
  | .bytes (b :: bs) :: rest =>
    (.bytes ((b :: bs).take limit), .bytes ((b :: bs).drop limit) :: rest)
  | .interrupted :: rest => (.interrupted, rest)
  | .pause :: rest => (.bytes [], rest)
  | .failure text :: rest => (.failed text, rest)

/-- What a read tells of the signals before and after it. -/
def Read.Tells (before after : List Signal) : Read → Prop
  | bytes [] => before = [] ∧ after = [] ∨ before = .pause :: after
  | bytes (b :: bs) => before = (b :: bs).map .byte ++ after
  | interrupted => before = after
  | failed text => before = .failure text :: after

/-- **A read takes what it gives.** -/
theorem tells_read {limit : Nat} (hlimit : 0 < limit) (s : Stream) :
    (s.read limit).1.Tells s.signals (s.read limit).2.signals := by
  fun_induction read limit s with
  | case1 => exact .inl ⟨rfl, rfl⟩
  | case2 rest ih => exact ih
  | case3 b bs rest =>
    obtain ⟨n, rfl⟩ := Nat.exists_eq_succ_of_ne_zero (Nat.ne_of_gt hlimit)
    rw [signals, List.drop_succ_cons, List.take_succ_cons]
    show (b :: bs).map Signal.byte ++ signals rest
      = (b :: bs.take n).map Signal.byte ++ ((bs.drop n).map Signal.byte ++ signals rest)
    rw [← List.append_assoc, ← List.map_append, List.cons_append, List.take_append_drop]
  | case4 rest => exact rfl
  | case5 rest => exact .inr rfl
  | case6 text rest => exact rfl

/-- How often a stream can be read. -/
def weight : Stream → Nat
  | [] => 0
  | .bytes bs :: rest => bs.length + 1 + weight rest
  | _ :: rest => 1 + weight rest

/-- A read that gives bytes leaves less to read. -/
theorem weight_of_read_bytes {limit : Nat} {s s' : Stream} {b : UInt8} {bs : List UInt8}
    (h : s.read limit = (.bytes (b :: bs), s')) : s'.weight < s.weight := by
  fun_induction read limit s with
  | case2 rest ih => exact Nat.lt_add_left _ (ih h)
  | case3 c cs rest =>
    obtain ⟨hbytes, rfl⟩ := Prod.mk.inj h
    cases limit with
    | zero => cases hbytes
    | succ n =>
      rw [weight, weight, List.length_drop, List.length_cons]
      omega
  | case1 | case4 | case5 | case6 => cases h

/-- So does one that is interrupted. -/
theorem weight_of_read_interrupted {limit : Nat} {s s' : Stream}
    (h : s.read limit = (.interrupted, s')) : s'.weight < s.weight := by
  fun_induction read limit s with
  | case2 rest ih => exact Nat.lt_add_left _ (ih h)
  | case4 rest =>
    cases h
    exact Nat.lt_add_of_pos_left Nat.one_pos
  | case1 | case3 | case5 | case6 => cases h

/-! ## One read after another -/

/-- **Takes a chunk**: what there is room for is kept, and nothing once
something was dropped. -/
def Capture.add (cap : Nat) (c : Capture) (chunk : List UInt8) : Capture :=
  if c.truncated then c
  else if chunk.length ≤ cap - c.bytes.length then ⟨c.bytes ++ chunk, false⟩
  else ⟨c.bytes ++ chunk.take (cap - c.bytes.length), true⟩

/-- What is kept before anything is read. -/
def Capture.start : Capture := ⟨[], false⟩

/-- **Reads to the end**, at most `limit` bytes at a time, and keeps what
there is room for. -/
def captureFrom (limit cap : Nat) (c : Capture) (s : Stream) : Except Error Capture × Stream :=
  match _h : s.read limit with
  | (.bytes [], rest) => (.ok c, rest)
  | (.bytes (b :: bs), rest) => captureFrom limit cap (c.add cap (b :: bs)) rest
  | (.interrupted, rest) => captureFrom limit cap c rest
  | (.failed text, rest) => (.error (.io text), rest)
termination_by s.weight
decreasing_by
  · exact weight_of_read_bytes _h
  · exact weight_of_read_interrupted _h

namespace Capture

variable {cap : Nat}

theorem add_of_truncated {c : Capture} (h : c.truncated = true) (chunk : List UInt8) :
    c.add cap chunk = c :=
  if_pos h

theorem add_of_le {bytes chunk : List UInt8} (h : chunk.length ≤ cap - bytes.length) :
    add cap ⟨bytes, false⟩ chunk = ⟨bytes ++ chunk, false⟩ :=
  (if_neg Bool.false_ne_true).trans (if_pos h)

theorem add_of_lt {bytes chunk : List UInt8} (h : cap - bytes.length < chunk.length) :
    add cap ⟨bytes, false⟩ chunk = ⟨bytes ++ chunk.take (cap - bytes.length), true⟩ :=
  (if_neg Bool.false_ne_true).trans (if_neg (Nat.not_le_of_lt h))

theorem add_nil (c : Capture) : c.add cap [] = c := by
  obtain ⟨bytes, truncated⟩ := c
  cases truncated with
  | true => rfl
  | false => rw [add_of_le (Nat.zero_le _), List.append_nil]

/-- **Chunks may be put together**, wherever the limit lies. So what is
kept of a stream can be said of its bytes in a row, and the sizes in which
a loop of reads takes them make no difference. -/
theorem add_add (c : Capture) (x y : List UInt8) :
    (c.add cap x).add cap y = c.add cap (x ++ y) := by
  obtain ⟨bytes, truncated⟩ := c
  cases truncated with
  | true => rfl
  | false =>
    have hlength : (x ++ y).length = x.length + y.length := List.length_append
    rcases Nat.lt_or_ge (cap - bytes.length) x.length with hx | hx
    · -- the limit is in the first chunk, so the second is dropped
      rw [add_of_lt hx, add_of_lt (by omega), add_of_truncated rfl,
        List.take_append_of_le_length (Nat.le_of_lt hx)]
    · have hroom : cap - (bytes ++ x).length = cap - bytes.length - x.length := by
        rw [List.length_append, Nat.sub_sub]
      rw [add_of_le hx]
      rcases Nat.lt_or_ge (cap - bytes.length - x.length) y.length with hy | hy
      · rw [add_of_lt (hroom ▸ hy), add_of_lt (by omega), hroom, List.append_assoc,
          List.take_append, List.take_of_length_le hx]
      · rw [add_of_le (hroom ▸ hy), add_of_le (by omega), List.append_assoc]

/-- **What is kept of some bytes** are the first ones. -/
theorem add_start (cap : Nat) (bs : List UInt8) :
    start.add cap bs = ⟨bs.take cap, decide (cap < bs.length)⟩ := by
  rcases Nat.lt_or_ge cap bs.length with h | h
  · rw [start, add_of_lt h, decide_eq_true h]
    rfl
  · rw [start, add_of_le h, List.take_of_length_le h, decide_eq_false (Nat.not_lt.mpr h)]
    rfl

end Capture

/-- **Keeps what there is room for**, one signal at a time, up to the end,
and gives back the remaining signals. -/
def keepFrom (cap : Nat) (c : Capture) : List Signal → Except Error Capture × List Signal
  | [] => (.ok c, [])
  | .byte b :: rest => keepFrom cap (c.add cap [b]) rest
  | .pause :: rest => (.ok c, rest)
  | .failure text :: rest => (.error (.io text), rest)

theorem keepFrom_bytes (cap : Nat) (c : Capture) (bs : List UInt8) (rest : List Signal) :
    keepFrom cap c (bs.map .byte ++ rest) = keepFrom cap (c.add cap bs) rest := by
  induction bs generalizing c with
  | nil => rw [Capture.add_nil]; rfl
  | cons b bs ih =>
    rw [List.map_cons, List.cons_append, keepFrom, ih, Capture.add_add, List.singleton_append]

/-- **A loop of reads is told by the signals alone**, and so is what it
leaves. -/
theorem told_captureFrom {limit : Nat} (hlimit : 0 < limit) (cap : Nat) (c : Capture) (s : Stream) :
    told (captureFrom limit cap c s) = keepFrom cap c s.signals := by
  have htells := tells_read hlimit s
  fun_induction captureFrom limit cap c s with
  | case1 c s rest h =>
    rw [h] at htells
    rcases htells with ⟨hs, hrest⟩ | hs
    · rw [hs, told, hrest]
      rfl
    · rw [hs]
      rfl
  | case2 c s b bs rest h ih =>
    rw [h] at htells
    rw [ih (tells_read hlimit rest), htells, keepFrom_bytes]
  | case3 c s rest h ih =>
    rw [h] at htells
    rw [ih (tells_read hlimit rest), htells]
  | case4 c s text rest h =>
    rw [h] at htells
    rw [htells]
    rfl

/-- What is kept of whole chunks, once some bytes were kept. -/
theorem captureInto_eq (cap : Nat) {room : Nat} {kept : List UInt8} {truncated : Bool}
    (hroom : truncated = false → room = cap - kept.length) (s : Stream) :
    captureInto room kept truncated s = (keepFrom cap ⟨kept.reverse, truncated⟩ s.signals).1 := by
  induction s generalizing room kept truncated with
  | nil => rfl
  | cons e rest ih =>
    cases e with
    | bytes bs =>
      rw [signals, keepFrom_bytes]
      cases truncated with
      | true => exact ih fun h => Bool.noConfusion h
      | false =>
        have hroom : room = cap - kept.reverse.length := by
          rw [List.length_reverse]
          exact hroom rfl
        rw [captureInto, if_neg Bool.false_ne_true]
        rcases Nat.lt_or_ge room bs.length with hlt | hge
        · have hdropped : ∀ kept, captureInto 0 kept true rest
              = (keepFrom cap ⟨kept.reverse, true⟩ (signals rest)).1 :=
            fun kept => ih fun h => Bool.noConfusion h
          rw [if_neg (Nat.not_le_of_lt hlt), hdropped, Capture.add_of_lt (hroom ▸ hlt),
            List.reverse_append, List.reverse_reverse, hroom]
        · rw [if_pos hge, ih ?_, Capture.add_of_le (hroom ▸ hge), List.reverse_append,
            List.reverse_reverse]
          intro _
          rw [List.length_append, List.length_reverse, hroom, List.length_reverse]
          omega
    | interrupted => exact ih hroom
    | pause => rfl
    | failure text => rfl

/-- **What is kept is told by the signals alone**, also where whole chunks
are taken. -/
theorem capture_eq (cap : Nat) (s : Stream) :
    s.capture cap = (keepFrom cap .start s.signals).1 :=
  @captureInto_eq cap cap [] false (fun _ => rfl) s

/-! ## What comes of it -/

theorem keepFrom_of_end (cap : Nat) (c : Capture) {rest : List Signal}
    (hrest : rest = [] ∨ rest.head? = some .pause) : keepFrom cap c rest = (.ok c, rest.tail) := by
  rcases hrest with rfl | hrest
  · rfl
  · obtain ⟨more, rfl⟩ := List.head?_eq_some_iff.mp hrest
    rfl

theorem keepFrom_of_failure (cap : Nat) (c : Capture) {rest : List Signal} {text : String}
    (hrest : rest.head? = some (.failure text)) :
    keepFrom cap c rest = (.error (.io text), rest.tail) := by
  obtain ⟨more, rfl⟩ := List.head?_eq_some_iff.mp hrest
  rfl

/-- **What is kept of a stream is exact.** A loop of reads of any size gives
what `capture` gives of whole chunks, and streams that bring the same in
other chunks, with other interruptions, are read alike and left alike. Up to
its first end a stream is read to that end, and of the bytes before it the
first ones are kept, as many as the limit allows, and whether there were
more; a capture that has dropped something stays as it is, whatever room it
has. A failure before any end is passed on. -/
theorem capture_exact {limit : Nat} (hlimit : 0 < limit) (cap : Nat) (s : Stream) :
    (captureFrom limit cap .start s).1 = s.capture cap ∧
    (∀ limit' t, 0 < limit' → Rechunked s t →
      told (captureFrom limit cap .start s) = told (captureFrom limit' cap .start t)) ∧
    (∀ (bs : List UInt8) rest, s.signals = bs.map .byte ++ rest →
      (rest = [] ∨ rest.head? = some .pause →
        told (captureFrom limit cap .start s)
            = (.ok ⟨bs.take cap, decide (cap < bs.length)⟩, rest.tail) ∧
          ∀ c : Capture, c.truncated = true →
            told (captureFrom limit cap c s) = (.ok c, rest.tail)) ∧
      (∀ text, rest.head? = some (.failure text) →
        told (captureFrom limit cap .start s) = (.error (.io text), rest.tail))) := by
  refine ⟨?_, fun limit' t hlimit' hst => ?_, fun bs rest hs => ?_⟩
  · rw [capture_eq, ← told_captureFrom hlimit]
    rfl
  · rw [told_captureFrom hlimit, told_captureFrom hlimit', hst.signals_eq]
  · have htold : ∀ c, told (captureFrom limit cap c s) = keepFrom cap (c.add cap bs) rest := by
      intro c
      rw [told_captureFrom hlimit, hs, keepFrom_bytes]
    refine ⟨fun hrest => ⟨?_, fun c hc => ?_⟩, fun text hrest => ?_⟩
    · rw [htold, Capture.add_start, keepFrom_of_end cap _ hrest]
    · rw [htold, Capture.add_of_truncated hc, keepFrom_of_end cap _ hrest]
    · rw [htold, keepFrom_of_failure cap _ hrest]

/-- Six bytes with a limit of four, which lies inside the second chunk. Reads
of two bytes and of hundred find the same; the last chunk would fit behind
what is kept of the others if nothing had been dropped. -/
theorem capture_exact_four :
    let s : Stream :=
      [.bytes [1, 2, 3], .interrupted, .bytes [4, 5], .bytes [6], .pause, .bytes [7]]
    let t : Stream := [.bytes [1, 2, 3], .bytes [4, 5], .bytes [6], .pause, .bytes [7]]
    let broken : Stream := [.bytes [1], .failure "gone", .pause]
    told (captureFrom 2 4 .start s) = (.ok ⟨[1, 2, 3, 4], true⟩, [.byte 7]) ∧
    told (captureFrom 2 4 .start s) = told (captureFrom 100 4 .start t) ∧
    told (captureFrom 2 4 ⟨[0], true⟩ s) = (.ok ⟨[0], true⟩, [.byte 7]) ∧
    s.capture 4 = .ok ⟨[1, 2, 3, 4], true⟩ ∧
    told (captureFrom 2 4 .start broken) = (.error (.io "gone"), [.pause]) := by
  intro s t broken
  have htwo : 0 < 2 := by decide
  obtain ⟨hcapture, hsame, hkept⟩ := capture_exact htwo 4 s
  have hs : s.signals = [1, 2, 3, 4, 5, 6].map .byte ++ [.pause, .byte 7] := rfl
  obtain ⟨htold, hstays⟩ := (hkept _ _ hs).1 (.inr rfl)
  have hinterrupt : Rechunk t s :=
    .interrupt [.bytes [1, 2, 3]] [.bytes [4, 5], .bytes [6], .pause, .bytes [7]]
  refine ⟨htold, hsame 100 t (by decide) (.symm _ _ (.rel _ _ hinterrupt)), hstays _ rfl, ?_, ?_⟩
  · exact hcapture.symm.trans (congrArg Prod.fst htold)
  · exact ((capture_exact htwo 4 broken).2.2 [1] [.failure "gone", .pause] rfl).2 "gone" rfl

end Specimen.Stream
