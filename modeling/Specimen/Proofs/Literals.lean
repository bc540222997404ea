import Mathlib.Data.List.Basic
import Specimen.Proofs.Names
import Specimen.Value
import Std.Data.String.ToInt

/-!
# The texts of a value tell the value

A value is written in two ways: as its literal in a source and as its
display in a message. Both are a `Style` of one form, in which an
integer has a text of its own, and a tuple has an opening character, its
items with commas between them, and an ending character. They differ in
these characters, in how the least integer is spelled, and in the comma
that follows an item which stands alone.

In a style different values have different texts, even in front of other
text. The text of an integer ends where its digits end, and that of a
tuple at its ending character. So all that must not follow the text of a
value is a digit or a sign (`Value.Style.text_append_inj`).
-/

namespace Specimen.Value

/-! ## Integers -/

/-- Whether a character is a digit or a sign. -/
def isNumeral (c : Char) : Bool := c.isDigit || c == '-'

/-- A text ends a literal when it does not begin with a digit or a
sign. -/
def EndsLiteral (cs : List Char) : Prop := ∀ c ∈ cs.head?, isNumeral c = false

/-- The decimal text of an integer is made of digits and signs, at least
one. -/
theorem decimal_chars (n : Int32) :
    (toString n.toInt).toList ≠ [] ∧ ∀ c ∈ (toString n.toInt).toList, isNumeral c = true := by
  have hdigits : ∀ i : Nat, i.repr.toList ≠ [] ∧ ∀ c ∈ i.repr.toList, isNumeral c = true := by
    intro i
    rw [Nat.toList_repr]
    refine ⟨Nat.toDigits_ne_nil, fun c hc => ?_⟩
    rw [isNumeral, Nat.isDigit_of_mem_toDigits (by decide) (by decide) hc, Bool.true_or]
  show (Int.repr n.toInt).toList ≠ [] ∧ ∀ c ∈ (Int.repr n.toInt).toList, isNumeral c = true
  cases n.toInt with
  | ofNat i => exact hdigits i
  | negSucc i =>
    rw [Int.repr, String.toList_append]
    refine ⟨List.cons_ne_nil _ _, List.forall_mem_append.mpr ⟨?_, (hdigits _).2⟩⟩
    exact List.forall_mem_singleton.mpr rfl

theorem exists_head_decimal (n : Int32) :
    ∃ c rest, (toString n.toInt).toList = c :: rest ∧ isNumeral c = true := by
  obtain ⟨hne, hchars⟩ := decimal_chars n
  obtain ⟨c, rest, heq⟩ := List.exists_cons_of_ne_nil hne
  exact ⟨c, rest, heq, hchars c (heq ▸ List.mem_cons_self)⟩

/-- An integer is told from its decimal text, whatever ends it. -/
theorem decimal_append_inj {m n : Int32} {cs ds : List Char} (hcs : EndsLiteral cs)
    (hds : EndsLiteral ds)
    (h : (toString m.toInt).toList ++ cs = (toString n.toInt).toList ++ ds) :
    m = n ∧ cs = ds := by
  obtain ⟨hlist, hrest⟩ := append_inj_of_forall (decimal_chars m).2 (decimal_chars n).2 hcs hds h
  exact ⟨Int32.toInt_inj.mp (Int.repr_inj.mp (String.toList_inj.mp hlist)), hrest⟩

/-- What the literal of an integer begins with. -/
theorem exists_head_intLiteral (n : Int32) :
    ∃ c rest, (intLiteral n).toList = c :: rest ∧ (isNumeral c = true ∨ c = '(') := by
  by_cases h : n = Int32.minValue
  · subst h
    exact ⟨'(', "-2147483647 - 1)".toList, rfl, .inr rfl⟩
  · obtain ⟨c, rest, heq, hc⟩ := exists_head_decimal n
    rw [intLiteral, if_neg h]
    exact ⟨c, rest, heq, .inl hc⟩

/-- The least integer is told from others by its parenthesis. -/
theorem intLiteral_minValue_append_ne {n : Int32} (h : n ≠ Int32.minValue) (cs ds : List Char) :
    (intLiteral Int32.minValue).toList ++ cs ≠ (intLiteral n).toList ++ ds := by
  obtain ⟨c, rest, heq, hc⟩ := exists_head_decimal n
  intro hcs
  rw [intLiteral.eq_def n, if_neg h, heq] at hcs
  have hparen : '(' = c := (List.cons.inj hcs).1
  rw [← hparen] at hc
  cases hc

/-- **An integer is told from its literal**, whatever ends it. The least
integer has a literal of its own, in parentheses, which no other begins
with. -/
theorem intLiteral_append_inj {m n : Int32} {cs ds : List Char} (hcs : EndsLiteral cs)
    (hds : EndsLiteral ds) (h : (intLiteral m).toList ++ cs = (intLiteral n).toList ++ ds) :
    m = n ∧ cs = ds := by
  by_cases hm : m = Int32.minValue
  · by_cases hn : n = Int32.minValue
    · rw [hm, hn] at h
      exact ⟨hm.trans hn.symm, List.append_cancel_left h⟩
    · rw [hm] at h
      exact absurd h (intLiteral_minValue_append_ne hn cs ds)
  · by_cases hn : n = Int32.minValue
    · rw [hn] at h
      exact absurd h.symm (intLiteral_minValue_append_ne hm ds cs)
    · rw [intLiteral, intLiteral, if_neg hm, if_neg hn] at h
      exact decimal_append_inj hcs hds h

/-! ## Styles -/

/-- **A way to write values** from which they can be told. -/
structure Style where
  /-- The text of an integer. -/
  integer : Int32 → List Char
  /-- What a tuple begins with. -/
  opening : Char
  /-- What a tuple ends with. -/
  ending : Char
  /-- Whether a comma follows an item that stands alone. -/
  lone : Bool
  /-- An integer is told from its text, whatever ends it. -/
  integer_append_inj {m n : Int32} {cs ds : List Char} : EndsLiteral cs → EndsLiteral ds →
    integer m ++ cs = integer n ++ ds → m = n ∧ cs = ds
  /-- An integer is told from a tuple and from the end of one. -/
  exists_head_integer (n : Int32) : ∃ c rest, integer n = c :: rest ∧ c ≠ opening ∧ c ≠ ending
  /-- The beginning of a tuple is told from the end. -/
  opening_ne_ending : opening ≠ ending
  /-- The end of a tuple is told from what stands between items. -/
  ending_not_mem : ending ∉ [',', ' ']
  /-- The end of a tuple ends the text of an integer. -/
  isNumeral_ending : isNumeral ending = false

namespace Style

variable (st : Style)

mutual

/-- The text of a value. -/
def text : Value → List Char
  | .int n => st.integer n
  | .tuple items => st.opening :: inner items

/-- The text of the items of a tuple up to its end. -/
def inner : List Value → List Char
  | [] => [st.ending]
  | v :: items => text v ++ ((if st.lone && items.isEmpty then [','] else []) ++ behind items)

/-- What follows an item: the end, or a comma and the other items. -/
def behind : List Value → List Char
  | [] => [st.ending]
  | v :: items => ',' :: ' ' :: (text v ++ behind items)

end

/-- What follows the first item, and the only one in particular. -/
def after (items : List Value) : List Char :=
  (if st.lone && items.isEmpty then [','] else []) ++ st.behind items

theorem inner_cons (v : Value) (items : List Value) :
    st.inner (v :: items) = st.text v ++ st.after items := by
  rw [inner, after]

/-- A text that begins with the end of a tuple is that of no value. -/
theorem text_append_ne (v : Value) (cs ds : List Char) :
    st.ending :: cs ≠ st.text v ++ ds := by
  intro h
  cases v with
  | int n =>
    obtain ⟨c, rest, heq, -, hc⟩ := st.exists_head_integer n
    rw [text, heq] at h
    exact hc (List.cons.inj h).1.symm
  | tuple items =>
    rw [text] at h
    exact st.opening_ne_ending (List.cons.inj h).1.symm

theorem text_int_append_ne (n : Int32) (items : List Value) (cs ds : List Char) :
    st.text (int n) ++ cs ≠ st.text (tuple items) ++ ds := by
  obtain ⟨c, rest, heq, hc, -⟩ := st.exists_head_integer n
  intro h
  rw [text, text, heq] at h
  exact hc (List.cons.inj h).1

/-- The end of a tuple is told from a further item. -/
theorem behind_nil_append_ne (v : Value) (items : List Value) (cs ds : List Char) :
    st.behind [] ++ cs ≠ st.behind (v :: items) ++ ds := by
  intro h
  rw [behind, behind] at h
  exact st.ending_not_mem ((List.cons.inj h).1 ▸ List.mem_cons_self)

/-- An item that stands alone is told from one that others follow. -/
theorem after_nil_append_ne (v : Value) (items : List Value) (cs ds : List Char) :
    st.after [] ++ cs ≠ st.after (v :: items) ++ ds := by
  rw [after, after, List.isEmpty_nil, List.isEmpty_cons, Bool.and_true, Bool.and_false,
    if_neg Bool.false_ne_true, List.nil_append]
  split
  · -- behind the commas stand the end and a blank
    intro h
    rw [behind, behind] at h
    have hblank : st.ending = ' ' := (List.cons.inj (List.cons.inj h).2).1
    exact st.ending_not_mem (hblank ▸ List.mem_cons_of_mem _ List.mem_cons_self)
  · exact st.behind_nil_append_ne v items cs ds

/-- What follows an item ends its text. -/
theorem endsLiteral_behind (items : List Value) (cs : List Char) :
    EndsLiteral (st.behind items ++ cs) := by
  intro c hc
  cases items with
  | nil =>
    rw [behind] at hc
    cases hc
    exact st.isNumeral_ending
  | cons v items =>
    rw [behind] at hc
    cases hc
    rfl

theorem endsLiteral_after (items : List Value) (cs : List Char) :
    EndsLiteral (st.after items ++ cs) := by
  rw [after]
  split
  · intro c hc
    cases hc
    rfl
  · exact st.endsLiteral_behind items cs

mutual

/-- **A value is told from its text**, whatever ends it. A literal goes on
with digits and signs only, and what comes behind an item, be it another
one or the end of the tuple, begins with neither. -/
theorem text_append_inj : (v w : Value) → (cs ds : List Char) → EndsLiteral cs →
    EndsLiteral ds → st.text v ++ cs = st.text w ++ ds → v = w ∧ cs = ds
  | .int m, .int n, _, _, hcs, hds, h => by
    rw [text, text] at h
    obtain ⟨hmn, hrest⟩ := st.integer_append_inj hcs hds h
    exact ⟨congrArg int hmn, hrest⟩
  | .int m, .tuple ys, cs, ds, _, _, h => absurd h (st.text_int_append_ne m ys cs ds)
  | .tuple xs, .int n, cs, ds, _, _, h => absurd h.symm (st.text_int_append_ne n xs ds cs)
  | .tuple xs, .tuple ys, cs, ds, _, _, h => by
    rw [text, text] at h
    obtain ⟨hitems, hrest⟩ := inner_append_inj xs ys cs ds (List.cons.inj h).2
    exact ⟨congrArg tuple hitems, hrest⟩
termination_by v => (sizeOf v, 0)

/-- The items of a tuple are told from their text up to the end. -/
theorem inner_append_inj : (xs ys : List Value) → (cs ds : List Char) →
    st.inner xs ++ cs = st.inner ys ++ ds → xs = ys ∧ cs = ds
  | [], [], _, _, h => ⟨rfl, List.append_cancel_left h⟩
  | [], w :: ys, cs, ds, h => by
    rw [inner, inner_cons, List.append_assoc] at h
    exact absurd h (st.text_append_ne w cs _)
  | v :: xs, [], cs, ds, h => by
    rw [inner, inner_cons, List.append_assoc] at h
    exact absurd h.symm (st.text_append_ne v ds _)
  | v :: xs, w :: ys, cs, ds, h => by
    rw [inner_cons, inner_cons, List.append_assoc, List.append_assoc] at h
    -- the first items agree, then what follows them
    obtain ⟨hvw, hafter⟩ := text_append_inj v w _ _ (st.endsLiteral_after xs cs)
      (st.endsLiteral_after ys ds) h
    obtain ⟨hitems, hrest⟩ := after_append_inj xs ys cs ds hafter
    rw [hvw, hitems]
    exact ⟨rfl, hrest⟩
termination_by xs => (sizeOf xs, 0)

/-- The other items are told from what follows the first. -/
theorem after_append_inj : (xs ys : List Value) → (cs ds : List Char) →
    st.after xs ++ cs = st.after ys ++ ds → xs = ys ∧ cs = ds
  | [], [], _, _, h => ⟨rfl, List.append_cancel_left h⟩
  | [], w :: ys, cs, ds, h => absurd h (st.after_nil_append_ne w ys cs ds)
  | v :: xs, [], cs, ds, h => absurd h.symm (st.after_nil_append_ne v xs ds cs)
  | v :: xs, w :: ys, cs, ds, h => by
    simp only [after, List.isEmpty_cons, Bool.and_false, Bool.false_eq_true, if_false,
      List.nil_append] at h
    exact behind_append_inj (v :: xs) (w :: ys) cs ds h
termination_by xs => (sizeOf xs, 1)

/-- The remaining items are told from what follows an item. -/
theorem behind_append_inj : (xs ys : List Value) → (cs ds : List Char) →
    st.behind xs ++ cs = st.behind ys ++ ds → xs = ys ∧ cs = ds
  | [], [], _, _, h => ⟨rfl, List.append_cancel_left h⟩
  | [], w :: ys, cs, ds, h => absurd h (st.behind_nil_append_ne w ys cs ds)
  | v :: xs, [], cs, ds, h => absurd h.symm (st.behind_nil_append_ne v xs ds cs)
  | v :: xs, w :: ys, cs, ds, h => by
    simp only [behind, List.cons_append, List.append_assoc, List.cons.injEq, true_and] at h
    obtain ⟨hvw, hbehind⟩ := text_append_inj v w _ _ (st.endsLiteral_behind xs cs)
      (st.endsLiteral_behind ys ds) h
    obtain ⟨hitems, hrest⟩ := behind_append_inj xs ys cs ds hbehind
    rw [hvw, hitems]
    exact ⟨rfl, hrest⟩
termination_by xs => (sizeOf xs, 0)

end

/-- Texts of values with commas between them, up to the end. -/
theorem toList_intercalate {f : Value → String} (v : Value) (items : List Value)
    (hf : ∀ w ∈ v :: items, (f w).toList = st.text w) :
    (", ".intercalate ((v :: items).map f)).toList ++ [st.ending]
      = st.text v ++ st.behind items := by
  have hv : (f v).toList = st.text v := hf v List.mem_cons_self
  induction items generalizing v with
  | nil => rw [List.map_singleton, String.intercalate_singleton, hv, behind]
  | cons w items ih =>
    have hrest := ih w (fun u hu => hf u (List.mem_cons_of_mem _ hu))
      (hf w (List.mem_cons_of_mem _ List.mem_cons_self))
    rw [List.map_cons] at hrest
    rw [List.map_cons, List.map_cons, String.intercalate_cons_cons, String.toList_append,
      String.toList_append, List.append_assoc, List.append_assoc, hv, hrest, behind]
    rfl

end Style

/-- The style of literals: braces. -/
def braces : Style where
  integer n := (intLiteral n).toList
  opening := '\x7b'
  ending := '\x7d'
  lone := false
  integer_append_inj := intLiteral_append_inj
  exists_head_integer n := by
    obtain ⟨c, rest, heq, hc⟩ := exists_head_intLiteral n
    refine ⟨c, rest, heq, ?_, ?_⟩ <;> rintro rfl <;> rcases hc with hc | hc <;> cases hc
  opening_ne_ending := by decide
  ending_not_mem := by decide
  isNumeral_ending := rfl

/-- The style of displays: parentheses, and a comma behind an item that
stands alone. -/
def parentheses : Style where
  integer n := (toString n.toInt).toList
  opening := '('
  ending := ')'
  lone := true
  integer_append_inj := decimal_append_inj
  exists_head_integer n := by
    obtain ⟨c, rest, heq, hc⟩ := exists_head_decimal n
    refine ⟨c, rest, heq, ?_, ?_⟩ <;> rintro rfl <;> cases hc
  opening_ne_ending := by decide
  ending_not_mem := by decide
  isNumeral_ending := rfl

/-! ## Literals and displays -/

/-- Literals are in braces. -/
theorem toList_literal : (v : Value) → v.literal.toList = braces.text v
  | .int n => rfl
  | .tuple [] => rfl
  | .tuple (v :: items) => by
    have hitems : ∀ w ∈ v :: items, w.literal.toList = braces.text w :=
      fun w _ => toList_literal w
    have hinner := braces.toList_intercalate v items hitems
    rw [literal, literalItems_eq_map, String.toList_append, String.toList_append,
      List.append_assoc, Style.text, Style.inner_cons]
    exact congrArg ('\x7b' :: ·) hinner

/-- Displays are in parentheses. -/
theorem toList_display : (v : Value) → v.display.toList = parentheses.text v
  | .int n => rfl
  | .tuple [] => rfl
  | .tuple [v] => by
    rw [display, String.toList_append, String.toList_append, List.append_assoc, toList_display v]
    rfl
  | .tuple (v :: w :: items) => by
    have hitems : ∀ u ∈ v :: w :: items, u.display.toList = parentheses.text u :=
      fun u _ => toList_display u
    have hinner := parentheses.toList_intercalate v (w :: items) hitems
    rw [display, displayItems_eq_map, String.toList_append, String.toList_append,
      List.append_assoc, Style.text, Style.inner_cons]
    · exact congrArg ('(' :: ·) hinner
    · nofun

/-- **A value is told from its literal**, whatever ends it. -/
theorem literal_append_inj (v w : Value) (cs ds : List Char) (hcs : EndsLiteral cs)
    (hds : EndsLiteral ds) (h : v.literal.toList ++ cs = w.literal.toList ++ ds) :
    v = w ∧ cs = ds := by
  rw [toList_literal, toList_literal] at h
  exact braces.text_append_inj v w cs ds hcs hds h

end Specimen.Value
