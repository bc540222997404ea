import Mathlib.Logic.Relation
import Specimen.Proofs.Signals
import Specimen.Schema.Layout

/-!
# Reading does not depend on how bytes arrive

Whether a value arrives in one chunk or in several, and how often its
reading is interrupted, is a matter of luck. Streams that differ in
nothing else have the same signals (`Stream.Rechunked.signals_eq`), so
what is true of signals is true of everything that is read.

A read of some bytes depends on the signals, and so do the signals it
leaves (`Stream.readExact_signals`). A value is read by such reads, one
after another, and whether there is another one depends on what the one
before has given. So streams of the same signals are read in step: at any
point of a value the results agree, and the streams have the same signals
again (`Layout.told_read`). From one value to the next it goes on like
that (`Stream.replies_eq`).
-/

namespace Specimen

namespace Stream

/-! ## The same bytes in other chunks -/

/-- **What does not count**: that a chunk arrives in two parts, or that a
read is interrupted in between. -/
inductive Rechunk : Stream → Stream → Prop where
  /-- A chunk is split. -/
  | split (before after : Stream) (front back : List UInt8) :
      Rechunk (before ++ .bytes (front ++ back) :: after)
        (before ++ .bytes front :: .bytes back :: after)
  /-- There is one more interruption. -/
  | interrupt (before after : Stream) :
      Rechunk (before ++ after) (before ++ .interrupted :: after)

/-- **Streams that bring the same in other chunks**: chunks are split and
merged, interruptions come and go. -/
def Rechunked : Stream → Stream → Prop := Relation.EqvGen Rechunk

theorem signals_append (s t : Stream) : (s ++ t).signals = s.signals ++ t.signals := by
  induction s with
  | nil => rfl
  | cons e s ih =>
    rw [List.cons_append]
    cases e with
    | bytes bs => rw [signals, signals, ih, List.append_assoc]
    | interrupted => exact ih
    | pause => exact congrArg (Signal.pause :: ·) ih
    | failure text => exact congrArg (Signal.failure text :: ·) ih

/-- **Chunks are not noticed**, nor are interruptions. -/
theorem Rechunk.signals_eq {s t : Stream} (h : Rechunk s t) : s.signals = t.signals := by
  cases h with
  | split before after front back =>
    rw [signals_append, signals_append, signals, signals, signals, List.map_append,
      List.append_assoc]
  | interrupt before after => rw [signals_append, signals_append, signals]

theorem Rechunked.signals_eq {s t : Stream} (h : Rechunked s t) : s.signals = t.signals := by
  induction h with
  | rel s t h => exact h.signals_eq
  | refl s => rfl
  | symm s t _ ih => exact ih.symm
  | trans s t u _ _ ihst ihtu => exact ihst.trans ihtu

/-! ## What is told of a read -/

/-- **What is told of a read**: its result, and the signals that are left. -/
def told {α : Type} (r : α × Stream) : α × List Signal := (r.1, r.2.signals)

theorem told_iff {α : Type} {x y : α × Stream} :
    told x = told y ↔ x.1 = y.1 ∧ x.2.signals = y.2.signals :=
  Prod.ext_iff

theorem told_readExact {s t : Stream} (h : s.signals = t.signals) (n : Nat) :
    told (s.readExact n) = told (t.readExact n) := by
  unfold told
  rw [readExact_signals, readExact_signals, h]

end Stream

namespace Layout

/-- An integer is read in step. -/
theorem told_readInt {s t : Stream} (h : s.signals = t.signals) :
    Stream.told (readInt s) = Stream.told (readInt t) := by
  have hbytes := Stream.told_readExact h 4
  unfold readInt
  generalize s.readExact 4 = x at hbytes ⊢
  generalize t.readExact 4 = y at hbytes ⊢
  obtain ⟨r, s'⟩ := x
  obtain ⟨_, t'⟩ := y
  obtain ⟨rfl, hleft⟩ := Stream.told_iff.mp hbytes
  -- four bytes are an integer, and no other number of bytes is
  rcases r with e | _ | _ | ⟨a, _ | ⟨b, _ | ⟨c, _ | ⟨d, _ | _⟩⟩⟩⟩ <;>
    exact Stream.told_iff.mpr ⟨rfl, hleft⟩

mutual

/-- **A value is read in step** from streams of the same signals. -/
theorem told_read : (l : Layout) → {s t : Stream} → s.signals = t.signals →
    Stream.told (l.read s) = Stream.told (l.read t)
  | .int, _, _, h => told_readInt h
  | .product _ fields, _, _, h => told_readFields fields h

/-- The values of fields are read in step. -/
theorem told_readFields {owner : String} {total : Nat} {done : List Value} :
    (fields : List LayoutField) → {s t : Stream} → s.signals = t.signals →
    Stream.told (readFields owner total done fields s)
      = Stream.told (readFields owner total done fields t)
  | [], _, _, h => congrArg (Prod.mk _) h
  | ⟨_, l⟩ :: fields, s, t, h => by
    have hfirst := told_read l h
    rw [readFields, readFields]
    generalize l.read s = x at hfirst ⊢
    generalize l.read t = y at hfirst ⊢
    obtain ⟨r, s'⟩ := x
    obtain ⟨_, t'⟩ := y
    obtain ⟨rfl, hleft⟩ := Stream.told_iff.mp hfirst
    match r with
    | .ok (some v) => exact told_readFields fields hleft
    | .ok none =>
      dsimp only
      split <;> exact Stream.told_iff.mpr ⟨rfl, hleft⟩
    | .error e => exact Stream.told_iff.mpr ⟨rfl, hleft⟩

end

end Layout

/-! ## One read after another -/

namespace Stream

/-- **What is asked of a stream**: some bytes, or a value. -/
inductive Request where
  /-- So many bytes. -/
  | bytes (n : Nat)
  /-- A value of a type. -/
  | value (t : Ty)

/-- **What is answered.** -/
inductive Reply where
  /-- Bytes, or why there are none. -/
  | bytes (result : Except Error (Option (List UInt8)))
  /-- A value, or why there is none. -/
  | value (result : Except Error (Option Value))

/-- Answers a request. -/
def Request.reply (s : Stream) : Request → Reply × Stream
  | bytes n => (.bytes (s.readExact n).1, (s.readExact n).2)
  | value t => (.value (t.read s).1, (t.read s).2)

/-- A request is answered in step. -/
theorem Request.told_reply {s t : Stream} (h : s.signals = t.signals) (request : Request) :
    told (request.reply s) = told (request.reply t) := by
  cases request with
  | bytes n =>
    obtain ⟨hresult, hleft⟩ := told_iff.mp (told_readExact h n)
    exact told_iff.mpr ⟨congrArg Reply.bytes hresult, hleft⟩
  | value ty =>
    obtain ⟨hresult, hleft⟩ := told_iff.mp (ty.layout.told_read h)
    exact told_iff.mpr ⟨congrArg Reply.value hresult, hleft⟩

/-- **Answers requests one after another**, however each of them ends. -/
def replies : List Request → Stream → List Reply
  | [], _ => []
  | request :: requests, s => (request.reply s).1 :: replies requests (request.reply s).2

/-- **All requests are answered in step.** -/
theorem replies_eq (requests : List Request) {s t : Stream} (h : s.signals = t.signals) :
    replies requests s = replies requests t := by
  induction requests generalizing s t with
  | nil => rfl
  | cons request requests ih =>
    obtain ⟨hreply, hleft⟩ := told_iff.mp (request.told_reply h)
    rw [replies, replies, hreply, ih hleft]

/-! ## A single read -/

theorem fillFrom_of_lt {n : Nat} {bs : List UInt8} (h : bs.length < n) (rest : List Signal) :
    fillFrom n [] (bs.map .byte ++ rest) = fillFrom (n - bs.length) bs rest :=
  fillFrom_bytes_of_le (Nat.le_of_lt h) [] rest

/-- **Reading does not depend on how bytes arrive.** Streams that bring the
same in other chunks, with other interruptions, answer all requests alike,
for bytes and for values of any types. What a read of at least one byte
gives is up to the bytes before the next end or failure alone: as many
bytes as are asked for are taken and no more; with fewer of them an end is
a value that is not complete, unless there are none, and a failure is
passed on. -/
theorem reads_rechunked :
    (∀ s t : Stream, Rechunked s t →
      ∀ requests, replies requests s = replies requests t) ∧
    (∀ (n : Nat) (s : Stream) (bs : List UInt8) (rest : List Signal), 0 < n →
      s.signals = bs.map .byte ++ rest →
      (bs.length = n →
        ∃ s', s'.signals = rest ∧ s.readExact n = (.ok (some bs), s')) ∧
      (bs.length < n → (rest = [] ∨ rest.head? = some .pause) →
        ∃ s', s'.signals = rest.tail ∧ s.readExact n
          = (if bs = [] then .ok none else .error (.incompleteValue n bs.length), s')) ∧
      (bs.length < n → ∀ text, rest.head? = some (.failure text) →
        ∃ s', s'.signals = rest.tail ∧ s.readExact n = (.error (.io text), s'))) := by
  refine ⟨fun s t h requests => replies_eq requests h.signals_eq, ?_⟩
  intro n s bs rest hn hs
  refine ⟨fun hlength => ?_, fun hlength hrest => ?_, fun hlength text hrest => ?_⟩
  · have hpos : bs ≠ [] := List.ne_nil_of_length_pos (hlength ▸ hn)
    rw [← Fill.result_complete hpos n]
    refine readExact_of_fillFrom ?_
    rw [hs, fillFrom_bytes_of_le (Nat.le_of_eq hlength), hlength, Nat.sub_self, fillFrom_zero,
      List.nil_append]
  · rw [← Fill.result_ended]
    refine readExact_of_fillFrom ?_
    rw [hs, fillFrom_of_lt hlength]
    rcases hrest with rfl | hrest
    · exact if_neg (Nat.sub_ne_zero_of_lt hlength)
    · obtain ⟨more, rfl⟩ := List.head?_eq_some_iff.mp hrest
      exact if_neg (Nat.sub_ne_zero_of_lt hlength)
  · obtain ⟨more, rfl⟩ := List.head?_eq_some_iff.mp hrest
    refine readExact_of_fillFrom (show _ = (Fill.failed text, _) from ?_)
    rw [hs, fillFrom_of_lt hlength]
    exact if_neg (Nat.sub_ne_zero_of_lt hlength)

/-- Five bytes, and an interruption behind the second. They are read as if
they had come at once: four of them are there, six are not. A failure
behind a byte is one of any longer read. -/
theorem reads_rechunked_five :
    let s : Stream := [.bytes [1, 2], .interrupted, .bytes [3, 4, 5], .pause]
    let t : Stream := [.bytes [1, 2, 3, 4, 5], .pause]
    let broken : Stream := [.bytes [1], .failure "gone"]
    Rechunked t s ∧
    replies [.value .int, .bytes 2] t = replies [.value .int, .bytes 2] s ∧
    (∃ s', s'.signals = [.byte 5, .pause] ∧ s.readExact 4 = (.ok (some [1, 2, 3, 4]), s')) ∧
    (∃ s', s'.signals = [] ∧ s.readExact 6 = (.error (.incompleteValue 6 5), s')) ∧
    (∃ s', s'.signals = [] ∧ broken.readExact 4 = (.error (.io "gone"), s')) := by
  intro s t broken
  obtain ⟨hreplies, hread⟩ := reads_rechunked
  have hsplit : Rechunk t [.bytes [1, 2], .bytes [3, 4, 5], .pause] :=
    .split [] [.pause] [1, 2] [3, 4, 5]
  have hinterrupt : Rechunk [.bytes [1, 2], .bytes [3, 4, 5], .pause] s :=
    .interrupt [.bytes [1, 2]] [.bytes [3, 4, 5], .pause]
  have hchunks : Rechunked t s := .trans _ _ _ (.rel _ _ hsplit) (.rel _ _ hinterrupt)
  refine ⟨hchunks, hreplies t s hchunks _, ?_, ?_, ?_⟩
  · exact (hread 4 s [1, 2, 3, 4] [.byte 5, .pause] (by decide) rfl).1 rfl
  · exact (hread 6 s [1, 2, 3, 4, 5] [.pause] (by decide) rfl).2.1 (by decide) (.inr rfl)
  · exact (hread 4 broken [1] [.failure "gone"] (by decide) rfl).2.2 (by decide) "gone" rfl

end Stream

end Specimen
