import Specimen.Proofs.RoundTrip

/-!
# Streams that end too early

A stream may end before a value is complete. Inside an integer this is
one error, between two fields of a product another, and before the value
has begun it is none. Which of them it is depends on where the first
missing integer stands.

A layout is gone through depth first, so the integers of its values have
a fixed order, and each is reached by **steps** from a product into one
of its fields (`Layout.leaves`). When the stream ends right before an
integer, the innermost product that was already begun complains, the one
whose step does not lead to its first field (`Layout.shortage`). When
all steps lead to first fields nothing was begun. A product without
fields has no integers, yet counts as begun: behind one even an empty
stream is an error.
-/

namespace Specimen

namespace Layout

/-- **A step** from a product into one of its fields. -/
structure Step where
  /-- How messages call the product. -/
  product : String
  /-- The position of the field. -/
  index : Nat
  /-- The number of fields of the product. -/
  total : Nat

mutual

/-- **The integers of a layout**, depth first, each by the steps that
lead to it from the root. -/
def leaves : Layout → List (List Step)
  | .int => [[]]
  | .product name fields => fieldsLeaves (label name) fields.length 0 fields

/-- The integers of a product's fields from a position on. -/
def fieldsLeaves (owner : String) (total index : Nat) : List LayoutField → List (List Step)
  | [] => []
  | ⟨_, layout⟩ :: rest =>
    layout.leaves.map (⟨owner, index, total⟩ :: ·) ++ fieldsLeaves owner total (index + 1) rest

end

/-- **What reading gives when an integer is missing** that these steps
lead to: the innermost step to another than the first field decides. -/
def shortage (path : List Step) : Except Error (Option Value) :=
  match path.reverse.find? fun step => step.index ≠ 0 with
  | none => .ok none
  | some step => .error (.incompleteProduct step.product step.index step.total)

/-- **What reading gives when only so many bytes are there** and the
steps lead to the first integer that is not complete. -/
def cutShort (length : Nat) (path : List Step) : Except Error (Option Value) :=
  if length % 4 ≠ 0 then .error (.incompleteValue 4 (length % 4)) else shortage path

mutual

theorem width_eq : (l : Layout) → l.width = 4 * l.leaves.length
  | .int => rfl
  | .product name fields => by
    rw [width, leaves]
    exact fieldsWidth_eq fields (label name) fields.length 0

theorem fieldsWidth_eq : (fields : List LayoutField) → (owner : String) →
    (total index : Nat) →
    fieldsWidth fields = 4 * (fieldsLeaves owner total index fields).length
  | [], _, _, _ => rfl
  | ⟨_, l⟩ :: rest, owner, total, index => by
    rw [fieldsWidth, fieldsLeaves, List.length_append, List.length_map, width_eq l,
      fieldsWidth_eq rest owner total (index + 1), Nat.mul_add]

end

/-! ## The decision at a product -/

/-- **A product passes on what its field ends in**, except that it
complains itself when the field has not begun and is not the first. So the
complaint is that of the innermost product in which something was read. -/
theorem shortage_cons (step : Step) (path : List Step) :
    shortage (step :: path)
      = match shortage path with
        | .ok _ =>
          if step.index = 0 then .ok none
          else .error (.incompleteProduct step.product step.index step.total)
        | .error e => .error e := by
  unfold shortage
  rw [List.reverse_cons, List.find?_append]
  cases path.reverse.find? fun step => step.index ≠ 0 with
  | some inner => rfl
  | none =>
    by_cases h : step.index = 0
    · simp [h]
    · simp [h]

/-- Steps to first fields alone lead to an integer before which nothing
was begun. -/
theorem shortage_of_first {path : List Step} (h : ∀ step ∈ path, step.index = 0) :
    shortage path = .ok none := by
  have hnone : path.reverse.find? (fun step => step.index ≠ 0) = none := by
    refine List.find?_eq_none.mpr fun step hstep => ?_
    rw [h step (List.mem_reverse.mp hstep)]
    decide
  rw [shortage, hnone]

/-- The innermost step to another than the first field decides. -/
theorem shortage_of_innermost {outer inner : List Step} {step : Step} (h : step.index ≠ 0)
    (hinner : ∀ step ∈ inner, step.index = 0) :
    shortage (outer ++ step :: inner)
      = .error (.incompleteProduct step.product step.index step.total) := by
  induction outer with
  | nil =>
    rw [List.nil_append, shortage_cons, shortage_of_first hinner]
    exact if_neg h
  | cons x outer ih => rw [List.cons_append, shortage_cons, ih]

theorem cutShort_ne_some (length : Nat) (path : List Step) (v : Value) :
    cutShort length path ≠ .ok (some v) := by
  unfold cutShort shortage
  split
  · exact nofun
  · split <;> exact nofun

/-- Whole integers in front do not matter. -/
theorem cutShort_sub {length k : Nat} (h : 4 * k ≤ length) (path : List Step) :
    cutShort (length - 4 * k) path = cutShort length path := by
  have hmod : (length - 4 * k) % 4 = length % 4 := by omega
  rw [cutShort, cutShort, hmod]

/-- Going on behind a field that was cut short. -/
theorem readFields_of_cutShort {l : Layout} {s s' : Stream} {length : Nat}
    {path : List Step} (h : l.read s = (cutShort length path, s')) (owner : String)
    (total : Nat) (done : List Value) (name : String) (fields : List LayoutField) :
    readFields owner total done (⟨name, l⟩ :: fields) s
      = (cutShort length (⟨owner, done.length, total⟩ :: path), s') := by
  rw [readFields, h]
  unfold cutShort
  by_cases hmod : length % 4 ≠ 0
  · rw [if_pos hmod, if_pos hmod]
  · rw [if_neg hmod, if_neg hmod, shortage_cons]
    unfold shortage
    cases path.reverse.find? fun step => step.index ≠ 0 with
    | some inner => rfl
    | none =>
      cases done with
      | nil => rfl
      | cons v done => rfl

/-! ## Enough bytes and too few -/

mutual

/-- **Enough bytes are read as a value.** -/
theorem read_of_le : (l : Layout) → (s : Stream) → (bs : List UInt8) → s.Holds bs →
    l.width ≤ bs.length →
    ∃ v s', s'.Holds (bs.drop l.width) ∧ l.read s = (.ok (some v), s')
  | .int, s, a :: b :: c :: d :: rest, hs, _ => by
    obtain ⟨s', hs', hread⟩ := readInt_of_four hs
    exact ⟨_, s', hs', hread⟩
  | .int, _, [], _, h | .int, _, [_], _, h | .int, _, [_, _], _, h
  | .int, _, [_, _, _], _, h => by simp [width] at h
  | .product name fields, s, bs, hs, h => by
    rw [width] at h ⊢
    exact readFields_of_le fields (label name) fields.length [] s bs hs h

/-- Enough bytes are read as the values of fields. -/
theorem readFields_of_le : (fields : List LayoutField) → (owner : String) →
    (total : Nat) → (done : List Value) → (s : Stream) → (bs : List UInt8) →
    s.Holds bs → fieldsWidth fields ≤ bs.length →
    ∃ v s', s'.Holds (bs.drop (fieldsWidth fields)) ∧
      readFields owner total done fields s = (.ok (some v), s')
  | [], _, _, _, s, _, hs, _ => ⟨_, s, hs, by rw [readFields]⟩
  | ⟨_, l⟩ :: fields, owner, total, done, s, bs, hs, h => by
    rw [fieldsWidth] at h ⊢
    obtain ⟨v, t, ht, hread⟩ := read_of_le l s bs hs (Nat.le_of_add_right_le h)
    have hrest : fieldsWidth fields ≤ (bs.drop l.width).length := by
      rw [List.length_drop]
      exact Nat.le_sub_of_add_le' h
    obtain ⟨w, s', hs', hfields⟩ :=
      readFields_of_le fields owner total (v :: done) t _ ht hrest
    refine ⟨w, s', ?_, ?_⟩
    · rwa [← List.drop_drop]
    · rw [readFields, hread]
      exact hfields

end

mutual

/-- **Too few bytes are used up**, and the first integer that is not
complete decides what reading gives. It is the one whose number is that of
the whole integers among the bytes, so the induction on the layout counts
the integers of each field. -/
theorem read_of_lt : (l : Layout) → (s : Stream) → (bs : List UInt8) → s.Holds bs →
    bs.length < l.width →
    ∃ path s', l.leaves[bs.length / 4]? = some path ∧ s'.Holds [] ∧
      l.read s = (cutShort bs.length path, s')
  | .int, s, bs, hs, h => by
    have hlen : bs.length < 4 := h
    obtain ⟨s', hs', hread⟩ := readInt_of_short hs hlen
    refine ⟨[], s', ?_, hs', ?_⟩
    · rw [leaves, Nat.div_eq_of_lt hlen]
      rfl
    · rw [Layout.read, hread, cutShort, Nat.mod_eq_of_lt hlen]
      cases bs <;> rfl
  | .product name fields, s, bs, hs, h => by
    rw [width] at h
    exact readFields_of_lt fields (label name) fields.length [] s bs hs h

/-- Too few bytes for some fields are used up, and the first integer that
is not complete decides. -/
theorem readFields_of_lt : (fields : List LayoutField) → (owner : String) →
    (total : Nat) → (done : List Value) → (s : Stream) → (bs : List UInt8) →
    s.Holds bs → bs.length < fieldsWidth fields →
    ∃ path s', (fieldsLeaves owner total done.length fields)[bs.length / 4]? = some path ∧
      s'.Holds [] ∧ readFields owner total done fields s = (cutShort bs.length path, s')
  | [], _, _, _, _, _, _, h => absurd h (Nat.not_lt_zero _)
  | ⟨name, l⟩ :: fields, owner, total, done, s, bs, hs, h => by
    rw [fieldsWidth] at h
    rw [fieldsLeaves]
    by_cases hl : bs.length < l.width
    · -- the stream ends inside this field
      obtain ⟨path, s', hpath, hs', hread⟩ := read_of_lt l s bs hs hl
      obtain ⟨hlt, -⟩ := List.getElem?_eq_some_iff.mp hpath
      refine ⟨⟨owner, done.length, total⟩ :: path, s', ?_, hs', ?_⟩
      · rw [List.getElem?_append_left (by rwa [List.length_map]), List.getElem?_map, hpath]
        rfl
      · exact readFields_of_cutShort hread owner total done name fields
    · -- the field is complete, and its integers are counted off
      have hle : l.width ≤ bs.length := Nat.le_of_not_lt hl
      obtain ⟨v, t, ht, hread⟩ := read_of_le l s bs hs hle
      have hrest : (bs.drop l.width).length < fieldsWidth fields := by
        rw [List.length_drop]
        exact Nat.sub_lt_left_of_lt_add hle h
      obtain ⟨path, s', hpath, hs', hfields⟩ :=
        readFields_of_lt fields owner total (v :: done) t _ ht hrest
      rw [width_eq] at hle hpath hfields
      rw [List.length_drop] at hpath hfields
      rw [cutShort_sub hle] at hfields
      refine ⟨path, s', ?_, hs', ?_⟩
      · have hindex : l.leaves.length ≤ bs.length / 4 := by omega
        have hsub : (bs.length - 4 * l.leaves.length) / 4
            = bs.length / 4 - l.leaves.length := by omega
        rw [List.getElem?_append_right (by rwa [List.length_map]), List.length_map, ← hsub]
        exact hpath
      · rw [readFields, hread]
        exact hfields

end

/-! ## Only the first integer is reached by first fields -/

/-- The integers of fields from a position on are reached through those
fields. -/
theorem exists_le_of_mem_fieldsLeaves {owner : String} {total index : Nat}
    {fields : List LayoutField} {path : List Step}
    (h : path ∈ fieldsLeaves owner total index fields) :
    ∃ step ∈ path, index ≤ step.index := by
  induction fields generalizing index with
  | nil =>
    rw [fieldsLeaves] at h
    cases h
  | cons f fields ih =>
    obtain ⟨name, l⟩ := f
    rw [fieldsLeaves, List.mem_append] at h
    rcases h with h | h
    · obtain ⟨tail, _, rfl⟩ := List.mem_map.mp h
      exact ⟨_, List.mem_cons_self, Nat.le_refl index⟩
    · obtain ⟨step, hstep, hle⟩ := ih h
      exact ⟨step, hstep, Nat.le_of_succ_le hle⟩

mutual

/-- An integer reached through first fields alone is the first. -/
theorem eq_zero_of_leaves : (l : Layout) → (i : Nat) → (path : List Step) →
    l.leaves[i]? = some path → (∀ step ∈ path, step.index = 0) → i = 0
  | .int, 0, _, _, _ => rfl
  | .int, i + 1, _, h, _ => by
    rw [leaves, List.getElem?_cons_succ] at h
    cases h
  | .product name fields, i, path, h, hpath => by
    rw [leaves] at h
    exact eq_zero_of_fieldsLeaves fields (label name) fields.length i path h hpath

/-- An integer of some fields that is reached through first fields alone
is the first. -/
theorem eq_zero_of_fieldsLeaves : (fields : List LayoutField) → (owner : String) →
    (total i : Nat) → (path : List Step) →
    (fieldsLeaves owner total 0 fields)[i]? = some path →
    (∀ step ∈ path, step.index = 0) → i = 0
  | [], _, _, _, _, h, _ => by
    rw [fieldsLeaves] at h
    cases h
  | ⟨_, l⟩ :: fields, owner, total, i, path, h, hpath => by
    rw [fieldsLeaves] at h
    by_cases hi : i < l.leaves.length
    · rw [List.getElem?_append_left (by rwa [List.length_map]), List.getElem?_map,
        Option.map_eq_some_iff] at h
      obtain ⟨tail, htail, rfl⟩ := h
      exact eq_zero_of_leaves l i tail htail fun step hstep =>
        hpath step (List.mem_cons_of_mem _ hstep)
    · -- behind the first field some step is not to a first field
      rw [List.getElem?_append_right (by rw [List.length_map]; exact Nat.le_of_not_lt hi)] at h
      obtain ⟨step, hstep, hle⟩ := exists_le_of_mem_fieldsLeaves (List.mem_of_getElem? h)
      rw [hpath step hstep] at hle
      cases hle

end

end Layout

/-! ## Short streams, by type -/

/-- **How a stream that is too short for a value is read.** A value takes
four bytes for each integer of its layout. A stream of fewer bytes is
used up and gives no value. It ends inside an integer unless its length
is a multiple of four; otherwise it ends before the integer of that
number. When the steps to it all lead to first fields the stream was
empty and nothing is read; otherwise the product of the innermost other
step is incomplete, with the fields before that step read. -/
theorem Ty.read_short (t : Ty) {s : Stream} {bs : List UInt8} (hs : s.Holds bs)
    (h : bs.length < 4 * t.layout.leaves.length) :
    ∃ path r s', t.layout.leaves[bs.length / 4]? = some path ∧ t.read s = (r, s') ∧
      s'.Holds [] ∧ (∀ v, r ≠ .ok (some v)) ∧
      (bs.length % 4 ≠ 0 → r = .error (.incompleteValue 4 (bs.length % 4))) ∧
      (bs.length % 4 = 0 → (∀ step ∈ path, step.index = 0) → r = .ok none ∧ bs = []) ∧
      (bs.length % 4 = 0 → ∀ outer step inner, path = outer ++ step :: inner →
        step.index ≠ 0 → (∀ x ∈ inner, x.index = 0) →
        r = .error (.incompleteProduct step.product step.index step.total)) := by
  rw [← Layout.width_eq] at h
  obtain ⟨path, s', hpath, hs', hread⟩ := t.layout.read_of_lt s bs hs h
  refine ⟨path, _, s', hpath, hread, hs', Layout.cutShort_ne_some _ path, ?_, ?_, ?_⟩
  · intro hmod
    exact if_pos hmod
  · intro hmod hfirst
    refine ⟨?_, ?_⟩
    · rw [Layout.cutShort, if_neg (not_not_intro hmod), Layout.shortage_of_first hfirst]
    · have hzero : bs.length / 4 = 0 := t.layout.eq_zero_of_leaves _ path hpath hfirst
      exact List.length_eq_zero_iff.mp (by omega)
  · rintro hmod outer step inner rfl hstep hinner
    rw [Layout.cutShort, if_neg (not_not_intro hmod),
      Layout.shortage_of_innermost hstep hinner]

/-- A pair inside a product, behind an empty field, with its second
integer missing: the pair complains. -/
theorem Ty.read_short_nested :
    let pair : Product := ⟨some "Pair", (Product.tuple [.int, .int]).fields⟩
    let t : Ty := .product (Product.tuple [.product (Product.tuple []), .product pair])
    [1, 0, 0, 0].length < 4 * t.layout.leaves.length ∧
      ∃ s', s'.Holds [] ∧
        t.read (.ofBytes [1, 0, 0, 0])
          = (.error (.incompleteProduct "Pair" 1 2), s') := by
  intro pair t
  have hlt : [1, 0, 0, 0].length < 4 * t.layout.leaves.length := by decide
  have hpath : t.layout.leaves[1]?
      = some [⟨"(anonymous)", 1, 2⟩, ⟨"Pair", 1, 2⟩] := rfl
  obtain ⟨path, r, s', hleaf, hread, hs', -, -, -, hinner⟩ :=
    Ty.read_short t (Stream.holds_ofBytes [1, 0, 0, 0]) hlt
  refine ⟨hlt, s', hs', ?_⟩
  have hsplit : path = [⟨"(anonymous)", 1, 2⟩] ++ ⟨"Pair", 1, 2⟩ :: [] :=
    Option.some.inj (hleaf.symm.trans hpath)
  rw [hread, hinner rfl _ _ _ hsplit (by decide) nofun]

end Specimen
