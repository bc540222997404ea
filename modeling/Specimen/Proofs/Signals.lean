import Mathlib.Data.List.Basic
import Specimen.Stream

/-!
# What a reader can tell of a stream

The same bytes can reach a reader in many ways: in one chunk or in
several, with interruptions in between. None of that is visible to
someone who reads a fixed number of bytes. What is visible are the
**signals** of the stream, its bytes one by one with the pauses and
failures among them.

That `Stream.fill` depends on the signals alone is `fill_signals`.
Everything else about reading follows from it, in particular what
happens to a stream that **holds** some bytes and nothing else
(`Stream.Holds`): it gives up the bytes in order and then ends.
-/

namespace Specimen

namespace Stream

/-- **One thing that a reader notices.** -/
inductive Signal where
  /-- A byte. -/
  | byte (b : UInt8)
  /-- An end that is followed by more. -/
  | pause
  /-- A failure. -/
  | failure (text : String)

/-- **The signals of a stream**, without the borders between chunks and
without interruptions. -/
def signals : Stream → List Signal
  | [] => []
  | .bytes bs :: rest => bs.map .byte ++ signals rest
  | .interrupted :: rest => signals rest
  | .pause :: rest => .pause :: signals rest
  | .failure text :: rest => .failure text :: signals rest

/-- Gathers `need` more bytes behind those already `filled`, one signal
at a time, and gives back the remaining signals. -/
def fillFrom (need : Nat) (filled : List UInt8) : List Signal → Fill × List Signal
  | [] => if need = 0 then (.complete filled, []) else (.ended filled.length, [])
  | x :: rest =>
    if need = 0 then (.complete filled, x :: rest)
    else match x with
      | .byte b => fillFrom (need - 1) (filled ++ [b]) rest
      | .pause => (.ended filled.length, rest)
      | .failure text => (.failed text, rest)

@[simp] theorem fillFrom_zero (filled : List UInt8) (xs : List Signal) :
    fillFrom 0 filled xs = (.complete filled, xs) := by
  cases xs <;> simp [fillFrom]

/-- Bytes that do not suffice are all taken. -/
theorem fillFrom_bytes_of_le {need : Nat} {bs : List UInt8} (h : bs.length ≤ need)
    (filled : List UInt8) (xs : List Signal) :
    fillFrom need filled (bs.map .byte ++ xs)
      = fillFrom (need - bs.length) (filled ++ bs) xs := by
  induction bs generalizing need filled with
  | nil => simp
  | cons b bs ih =>
    have h : bs.length ≤ need - 1 := Nat.le_sub_of_add_le h
    have hneed : need ≠ 0 := by
      rintro rfl
      simp at *
    rw [List.map_cons, List.cons_append, fillFrom, if_neg hneed]
    show fillFrom (need - 1) (filled ++ [b]) (bs.map .byte ++ xs) = _
    rw [ih h, List.append_assoc, List.singleton_append, Nat.sub_sub, Nat.add_comm 1,
      List.length_cons]

/-- Of bytes that suffice the needed ones are taken. -/
theorem fillFrom_bytes_of_ge {need : Nat} {bs : List UInt8} (h : need ≤ bs.length)
    (filled : List UInt8) (xs : List Signal) :
    fillFrom need filled (bs.map .byte ++ xs)
      = (.complete (filled ++ bs.take need), (bs.drop need).map .byte ++ xs) := by
  have hlen : (bs.take need).length = need := List.length_take_of_le h
  have hsplit : bs.map Signal.byte ++ xs
      = (bs.take need).map .byte ++ ((bs.drop need).map .byte ++ xs) := by
    rw [← List.append_assoc, ← List.map_append, List.take_append_drop]
  rw [hsplit, fillFrom_bytes_of_le (Nat.le_of_eq hlen), hlen, Nat.sub_self, fillFrom_zero]

/-- **Filling depends on the signals alone**, and so do the signals that
are left. Interruptions and the sizes of chunks are no signals, so streams
that differ in them alone cannot be told apart by reading. -/
theorem fill_signals (need : Nat) (filled : List UInt8) (s : Stream) :
    ((fill need filled s).1, (fill need filled s).2.signals)
      = fillFrom need filled s.signals := by
  induction s generalizing need filled with
  | nil => unfold fill signals fillFrom; split <;> rfl
  | cons e rest ih =>
    by_cases hneed : need = 0
    · subst hneed
      simp [fill]
    · rw [fill.eq_def]
      dsimp only
      rw [if_neg hneed]
      cases e with
      | bytes bs =>
        dsimp only [signals]
        -- either the chunk is used up, or it suffices
        split
        next hdrop =>
          rw [ih, fillFrom_bytes_of_le (List.drop_eq_nil_iff.mp hdrop)]
        next hdrop =>
          have hge : need ≤ bs.length := by
            refine Nat.le_of_lt (Nat.lt_of_not_le fun hle => ?_)
            exact hdrop (List.drop_eq_nil_iff.mpr hle)
          rw [fillFrom_bytes_of_ge hge]
          rfl
      | interrupted => exact ih need filled
      | pause => simp [signals, fillFrom, hneed]
      | failure text => simp [signals, fillFrom, hneed]

/-- **What a read of `n` bytes gives**, by how it ended. -/
def Fill.result (n : Nat) : Fill → Except Error (Option (List UInt8))
  | complete [] => .ok none
  | complete bs => .ok (some bs)
  | ended 0 => .ok none
  | ended got => .error (.incompleteValue n got)
  | failed text => .error (.io text)

theorem readExact_eq (n : Nat) (s : Stream) :
    s.readExact n = ((fill n [] s).1.result n, (fill n [] s).2) := by
  unfold readExact Fill.result
  split <;> simp only [*]

/-- **Reading depends on the signals alone**, and so do the signals that
are left. -/
theorem readExact_signals (n : Nat) (s : Stream) :
    ((s.readExact n).1, (s.readExact n).2.signals)
      = ((fillFrom n [] s.signals).1.result n, (fillFrom n [] s.signals).2) := by
  rw [readExact_eq, ← fill_signals]

theorem readExact_of_fillFrom {n : Nat} {s : Stream} {r : Fill} {rest : List Signal}
    (h : fillFrom n [] s.signals = (r, rest)) :
    ∃ s', s'.signals = rest ∧ s.readExact n = (r.result n, s') := by
  have hread := readExact_signals n s
  rw [h] at hread
  obtain ⟨hresult, hrest⟩ := Prod.mk.inj hread
  exact ⟨_, hrest, Prod.ext hresult rfl⟩

theorem Fill.result_complete {bs : List UInt8} (h : bs ≠ []) (n : Nat) :
    (complete bs).result n = .ok (some bs) := by
  obtain ⟨b, bs, rfl⟩ := List.exists_cons_of_ne_nil h
  rfl

theorem Fill.result_ended (bs : List UInt8) (n : Nat) :
    (ended bs.length).result n
      = if bs = [] then .ok none else .error (.incompleteValue n bs.length) := by
  cases bs <;> rfl

/-! ## Streams of bytes only -/

/-- A stream **holds** some bytes when they are all that a reader gets
before its end. -/
def Holds (s : Stream) (bs : List UInt8) : Prop := s.signals = bs.map .byte

theorem holds_ofBytes (bs : List UInt8) : (ofBytes bs).Holds bs := by
  simp [Holds, ofBytes, signals]

theorem Holds.unique {s : Stream} {bs cs : List UInt8} (hb : s.Holds bs) (hc : s.Holds cs) :
    bs = cs :=
  List.map_injective_iff.mpr (fun _ _ => Signal.byte.inj) (hb.symm.trans hc)

/-- The needed bytes are taken from a stream that holds them. -/
theorem Holds.readExact_of_le {s : Stream} {bs : List UInt8} {n : Nat} (hs : s.Holds bs)
    (hn : 0 < n) (h : n ≤ bs.length) :
    ∃ s', s'.Holds (bs.drop n) ∧ s.readExact n = (.ok (some (bs.take n)), s') := by
  have hpos : bs.take n ≠ [] := by
    rw [← List.length_pos_iff, List.length_take_of_le h]
    exact hn
  rw [← Fill.result_complete hpos n]
  refine readExact_of_fillFrom ?_
  rw [hs, ← List.append_nil (bs.map _), fillFrom_bytes_of_ge h, List.nil_append, List.append_nil]

/-- **A stream that holds too little is used up**; it reads as none when
it holds nothing. -/
theorem Holds.readExact_of_lt {s : Stream} {bs : List UInt8} {n : Nat} (hs : s.Holds bs)
    (h : bs.length < n) :
    ∃ s', s'.Holds [] ∧
      s.readExact n
        = (if bs = [] then .ok none else .error (.incompleteValue n bs.length), s') := by
  rw [← Fill.result_ended]
  refine readExact_of_fillFrom ?_
  rw [hs, ← List.append_nil (bs.map _), fillFrom_bytes_of_le (Nat.le_of_lt h), fillFrom,
    if_neg (Nat.sub_ne_zero_of_lt h)]
  rfl

end Stream

end Specimen
