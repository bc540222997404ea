import Specimen.Proofs.Signals
import Specimen.Schema.Checked

/-!
# Reading back what was written

A value goes over the wire without any framing, so the reader has to
stop at the right place by itself. It does: `Layout.read` takes from a
stream exactly the bytes that `Value.encode` gives for a value of the
layout, and it gives a value only when it has taken exactly those. The
two directions are `Layout.read_encode` and `Layout.accepts_of_read`.

Nothing is asked of the types. A field without width takes nothing from
the stream and gives its empty tuple, and so does a product made of
such fields; ranges, lists and derived products are read through their
basic type.
-/

namespace Specimen

/-! ## Integers -/

namespace Layout

theorem readInt_of_four {s : Stream} {a b c d : UInt8} {rest : List UInt8}
    (hs : s.Holds (a :: b :: c :: d :: rest)) :
    ∃ s', s'.Holds rest ∧ readInt s = (.ok (some (.int (decodeInt a b c d))), s') := by
  obtain ⟨s', hs', hread⟩ := hs.readExact_of_le (Nat.succ_pos 3) (Nat.le_add_left 4 _)
  refine ⟨s', hs', ?_⟩
  rw [readInt, hread]
  rfl

/-- Fewer than four bytes are no integer. -/
theorem readInt_of_short {s : Stream} {bs : List UInt8} (hs : s.Holds bs)
    (h : bs.length < 4) :
    ∃ s', s'.Holds [] ∧
      readInt s
        = (if bs = [] then .ok none else .error (.incompleteValue 4 bs.length), s') := by
  obtain ⟨s', hs', hread⟩ := hs.readExact_of_lt h
  refine ⟨s', hs', ?_⟩
  rw [readInt, hread]
  by_cases hnil : bs = []
  · rw [if_pos hnil, if_pos hnil]
  · rw [if_neg hnil, if_neg hnil]

/-- **An integer read is the one whose bytes were there.** -/
theorem eq_encodeInt_of_readInt {s s' : Stream} {bs : List UInt8} {v : Value}
    (hs : s.Holds bs) (h : readInt s = (.ok (some v), s')) :
    ∃ n rest, v = .int n ∧ s'.Holds rest ∧ bs = encodeInt n ++ rest := by
  by_cases hlen : bs.length < 4
  · obtain ⟨t, _, hread⟩ := readInt_of_short hs hlen
    rw [hread] at h
    split at h <;> cases h
  · match bs, hs with
    | a :: b :: c :: d :: rest, hs =>
      obtain ⟨t, ht, hread⟩ := readInt_of_four hs
      rw [hread] at h
      cases h
      exact ⟨_, rest, rfl, ht, by rw [encodeInt_decodeInt]; rfl⟩
    | [], _ | [_], _ | [_, _], _ | [_, _, _], _ => simp at hlen

/-! ## From the value to the stream and back -/

mutual

/-- **A value is read back from its bytes**, and what follows them is
left. By induction on the layout, with any bytes behind those of the
value, so that it can be used for each item of a tuple in turn. -/
theorem read_encode : (l : Layout) → (v : Value) → (s : Stream) → (rest : List UInt8) →
    l.accepts v = true → s.Holds (v.encode ++ rest) →
    ∃ s', s'.Holds rest ∧ l.read s = (.ok (some v), s')
  | .int, .int n, s, rest, _, hs => by
    obtain ⟨s', hs', hread⟩ := readInt_of_four hs
    refine ⟨s', hs', ?_⟩
    rw [Layout.read, hread, decodeInt_encodeInt]
  | .int, .tuple _, _, _, hv, _ => by
    rw [accepts] at hv
    cases hv
  | .product _ _, .int _, _, _, hv, _ => by
    rw [accepts] at hv
    cases hv
  | .product name fields, .tuple items, s, rest, hv, hs => by
    rw [accepts] at hv
    rw [Value.encode] at hs
    exact readFields_encode fields (label name) fields.length [] items s rest hv hs

/-- The items of a tuple are read back from their bytes, behind those
already read. -/
theorem readFields_encode : (fields : List LayoutField) → (owner : String) →
    (total : Nat) → (done : List Value) → (items : List Value) → (s : Stream) →
    (rest : List UInt8) → acceptsFields fields items = true →
    s.Holds (Value.encodeItems items ++ rest) →
    ∃ s', s'.Holds rest ∧
      readFields owner total done fields s
        = (.ok (some (.tuple (done.reverse ++ items))), s')
  | [], owner, total, done, [], s, rest, _, hs => by
    refine ⟨s, hs, ?_⟩
    rw [readFields, List.append_nil]
  | [], _, _, _, _ :: _, _, _, hv, _ => by
    rw [acceptsFields] at hv
    cases hv
  | _ :: _, _, _, _, [], _, _, hv, _ => by
    rw [acceptsFields] at hv
    cases hv
  | ⟨_, l⟩ :: fields, owner, total, done, v :: items, s, rest, hv, hs => by
    rw [acceptsFields, Bool.and_eq_true] at hv
    rw [Value.encodeItems, List.append_assoc] at hs
    obtain ⟨t, ht, hread⟩ := read_encode l v s _ hv.1 hs
    obtain ⟨u, hu, hrest⟩ := readFields_encode fields owner total (v :: done) items t rest hv.2 ht
    refine ⟨u, hu, ?_⟩
    rw [readFields, hread]
    dsimp only
    rw [hrest, List.reverse_cons, List.append_assoc, List.singleton_append]

end

mutual

/-- **A value read is one of the layout, and its bytes were there**: the
stream held them in front of what it holds now. -/
theorem accepts_of_read : (l : Layout) → (v : Value) → (s s' : Stream) →
    (bs : List UInt8) → s.Holds bs → l.read s = (.ok (some v), s') →
    l.accepts v = true ∧ ∃ rest, s'.Holds rest ∧ bs = v.encode ++ rest
  | .int, v, s, s', bs, hs, h => by
    obtain ⟨n, rest, rfl, hrest, hbs⟩ := eq_encodeInt_of_readInt hs h
    exact ⟨rfl, rest, hrest, hbs⟩
  | .product name fields, v, s, s', bs, hs, h => by
    obtain ⟨items, rest, rfl, hacc, hrest, hbs⟩ := accepts_of_readFields fields _ _ _ v s s' bs hs h
    exact ⟨hacc, rest, hrest, hbs⟩

/-- The items read for fields are of their layouts, and their bytes were
there. -/
theorem accepts_of_readFields : (fields : List LayoutField) → (owner : String) →
    (total : Nat) → (done : List Value) → (v : Value) → (s s' : Stream) →
    (bs : List UInt8) → s.Holds bs →
    readFields owner total done fields s = (.ok (some v), s') →
    ∃ items rest, v = .tuple (done.reverse ++ items) ∧ acceptsFields fields items = true ∧
      s'.Holds rest ∧ bs = Value.encodeItems items ++ rest
  | [], owner, total, done, v, s, s', bs, hs, h => by
    rw [readFields] at h
    cases h
    exact ⟨[], bs, by rw [List.append_nil], rfl, hs, rfl⟩
  | ⟨_, l⟩ :: fields, owner, total, done, v, s, s', bs, hs, h => by
    rw [readFields] at h
    split at h
    next w t hread =>
      obtain ⟨hw, rest, ht, rfl⟩ := accepts_of_read l w s t bs hs hread
      obtain ⟨items, rest', rfl, hacc, hs', rfl⟩ := accepts_of_readFields fields _ _ _ v t s' rest ht h
      refine ⟨w :: items, rest', ?_, ?_, hs', ?_⟩
      · rw [List.reverse_cons, List.append_assoc, List.singleton_append]
      · rw [acceptsFields, hw, hacc]
        rfl
      · rw [Value.encodeItems, List.append_assoc]
    -- a field that ends or fails gives no tuple
    next => split at h <;> cases h
    next => cases h

end

end Layout

/-! ## The wire format of a type -/

/-- The bytes of an integer are its digits to the base 256, the lowest
first. -/
theorem encodeInt_digits (n : Int32) :
    ∃ a b c d : UInt8, encodeInt n = [a, b, c, d] ∧
      n.toUInt32.toNat
        = a.toNat + 0x100 * (b.toNat + 0x100 * (c.toNat + 0x100 * d.toNat)) := by
  have h : n.toUInt32.toNat < 0x100000000 := UInt32.toNat_lt n.toUInt32
  refine ⟨_, _, _, _, rfl, ?_⟩
  simp only [UInt8.toNat_ofNat']
  omega

theorem Value.encodeItems_eq_flatMap (items : List Value) :
    encodeItems items = items.flatMap encode := by
  induction items with
  | nil => rfl
  | cons v rest ih => rw [encodeItems, ih, List.flatMap_cons]

/-- Reads a number of values of a type one after another. -/
def Ty.readTimes (t : Ty) : Nat → Stream → List (Except Error (Option Value)) × Stream
  | 0, s => ([], s)
  | k + 1, s => ((t.read s).1 :: (t.readTimes k (t.read s).2).1, (t.readTimes k (t.read s).2).2)

/-- Values written one after another are read back in order. -/
theorem Ty.readTimes_encode (t : Ty) {vs : List Value} (hvs : ∀ v ∈ vs, t.accepts v = true)
    {rest : List UInt8} {s : Stream} (hs : s.Holds (vs.flatMap Value.encode ++ rest)) :
    ∃ s', s'.Holds rest ∧ t.readTimes vs.length s = (vs.map fun v => .ok (some v), s') := by
  induction vs generalizing s with
  | nil => exact ⟨s, hs, rfl⟩
  | cons v vs ih =>
    rw [List.flatMap_cons, List.append_assoc] at hs
    obtain ⟨u, hu, hread⟩ := t.layout.read_encode v s _ (hvs v List.mem_cons_self) hs
    obtain ⟨s', hs', htimes⟩ := ih (fun w hw => hvs w (List.mem_cons_of_mem v hw)) hu
    refine ⟨s', hs', ?_⟩
    rw [List.length_cons, readTimes, Ty.read, hread, htimes, List.map_cons]

/-- **The wire format frames itself.** An integer is written as its
digits to the base 256 and a tuple as its items one after another. For
every type, a value that has its layout is read back from its bytes and
what follows them is left; a value is read only when the stream began
with its bytes; and so a sequence of values is read back in order. -/
theorem Ty.read_wire (t : Ty) :
    (∀ n : Int32, ∃ a b c d : UInt8, (Value.int n).encode = [a, b, c, d] ∧
      n.toUInt32.toNat
        = a.toNat + 0x100 * (b.toNat + 0x100 * (c.toNat + 0x100 * d.toNat))) ∧
    (∀ items : List Value, (Value.tuple items).encode = items.flatMap Value.encode) ∧
    (∀ (v : Value) (rest : List UInt8) (s : Stream), t.accepts v = true →
      s.Holds (v.encode ++ rest) →
      ∃ s', s'.Holds rest ∧ t.read s = (.ok (some v), s')) ∧
    (∀ (v : Value) (bs : List UInt8) (s s' : Stream), s.Holds bs →
      t.read s = (.ok (some v), s') →
      t.accepts v = true ∧ ∃ rest, s'.Holds rest ∧ bs = v.encode ++ rest) ∧
    (∀ (vs : List Value) (rest : List UInt8) (s : Stream), (∀ v ∈ vs, t.accepts v = true) →
      s.Holds (vs.flatMap Value.encode ++ rest) →
      ∃ s', s'.Holds rest ∧
        t.readTimes vs.length s = (vs.map fun v => .ok (some v), s')) := by
  refine ⟨fun n => ?_, fun items => ?_, fun v rest s => ?_, fun v bs s s' => ?_,
    fun vs rest s => ?_⟩
  · rw [Value.encode]
    exact encodeInt_digits n
  · rw [Value.encode]
    exact Value.encodeItems_eq_flatMap items
  · exact t.layout.read_encode v s rest
  · exact t.layout.accepts_of_read v s s' bs
  · exact fun hvs hs => t.readTimes_encode hvs hs

/-- Two tuples of a derived product with an empty field in front, and a
byte behind them. -/
theorem Ty.read_wire_derived :
    let t : Ty := .derived (Product.tuple [.product (Product.tuple []), .int]).derive
    let v : Value := .tuple [.tuple [], .int (-7)]
    t.accepts v = true ∧ ∃ s', s'.Holds [0x2a] ∧
      t.readTimes 2 (.ofBytes ([v, v].flatMap Value.encode ++ [0x2a]))
        = ([.ok (some v), .ok (some v)], s') := by
  intro t v
  have hv : t.accepts v = true := by decide
  refine ⟨hv, (Ty.read_wire t).2.2.2.2 [v, v] [0x2a] _ ?_ (Stream.holds_ofBytes _)⟩
  intro w hw
  simp only [List.mem_cons, List.not_mem_nil, or_false, or_self] at hw
  rw [hw, hv]

end Specimen
