import Mathlib.Data.List.Forall2
import Specimen.Proofs.Literals
import Specimen.Proofs.Variables

/-!
# Value texts are unambiguous

Displays, literals and lists of literals each tell what they were made
from, and so does the code of listed values, whether they are generated
or enumerated (`Value.texts_exact`).

A literal also means its value where the program is compiled. The
compiler knows decimal literals that fit an `int`, which have no sign;
a minus sign in front of one, and the difference of two, are computed.
`Value.constant?` is that reading of a text, and `Value.Initializes`
carries it to the initializers of tuples.
-/

namespace Specimen

namespace Value

/-! ## What a literal means -/

/-- The number of a decimal literal of type `int`: one of digits, which
begin with a zero for zero only, that is at most `2147483647`. -/
def decimal? (cs : List Char) : Option Nat :=
  if cs ≠ [] ∧ cs.all Char.isDigit = true ∧ (cs.head? = some '0' → cs = ['0']) ∧
      Nat.ofDigitChars 10 cs 0 ≤ 2147483647 then
    some (Nat.ofDigitChars 10 cs 0)
  else none

/-- The number of a decimal literal that may have a minus sign in front
of it. -/
def signed? : List Char → Option Int
  | '-' :: cs => (decimal? cs).map fun n : Nat => -(n : Int)
  | cs => (decimal? cs).map Int.ofNat

/-- **The integer of a constant**: a decimal literal that may have a
minus sign or, in parentheses, the difference of two of them. -/
def constant? : List Char → Option Int
  | '(' :: cs =>
    match cs.splitOn ' ' with
    | [a, ['-'], b] => do
      let m ← signed? a
      let n ← if b.getLast? = some ')' then signed? b.dropLast else none
      some (m - n)
    | _ => none
  | cs => signed? cs

/-- **An initializer of a value**: a constant for an integer, and for a
tuple the initializers of its items in braces. -/
inductive Initializes : List Char → Value → Prop
  /-- A constant. -/
  | int {cs : List Char} {n : Int32} : constant? cs = some n.toInt → Initializes cs (.int n)
  /-- Initializers in braces. -/
  | tuple {texts : List (List Char)} {items : List Value} : List.Forall₂ Initializes texts items →
    Initializes ('\x7b' :: ([',', ' '].intercalate texts ++ ['\x7d'])) (.tuple items)

/-- A decimal text begins with a zero for zero only. -/
theorem eq_zero_of_head?_toDigits (n : Nat) (h : (Nat.toDigits 10 n).head? = some '0') : n = 0 := by
  induction n using Nat.strongRecOn with
  | ind n ih =>
    by_cases hn : n < 10
    · rw [Nat.toDigits_of_lt_base hn] at h
      have hdigit : ∀ m < 10, m.digitChar = '0' → m = 0 := by decide
      exact hdigit n hn (Option.some.inj h)
    · rw [Nat.toDigits_of_base_le (by decide) (by omega),
        List.head?_append_of_ne_nil _ Nat.toDigits_ne_nil] at h
      have hquotient : n / 10 = 0 := ih (n / 10) (by omega) h
      omega

/-- A decimal text is the decimal literal of its number. -/
theorem decimal?_toDigits {n : Nat} (h : n ≤ 2147483647) :
    decimal? (Nat.toDigits 10 n) = some n := by
  have hvalue : Nat.ofDigitChars 10 (Nat.toDigits 10 n) 0 = n :=
    Nat.ofDigitChars_toDigits (by decide) (by decide)
  have hdigits : (Nat.toDigits 10 n).all Char.isDigit = true :=
    List.all_eq_true.mpr fun c hc => Nat.isDigit_of_mem_toDigits (by decide) (by decide) hc
  have hzero : (Nat.toDigits 10 n).head? = some '0' → Nat.toDigits 10 n = ['0'] := by
    intro hhead
    rw [eq_zero_of_head?_toDigits n hhead]
    rfl
  rw [decimal?, hvalue, if_pos ⟨Nat.toDigits_ne_nil, hdigits, hzero, h⟩]

/-- A decimal text is a constant. -/
theorem constant?_toDigits {n : Nat} (h : n ≤ 2147483647) :
    constant? (Nat.toDigits 10 n) = some (n : Int) := by
  obtain ⟨c, rest, heq⟩ := List.exists_cons_of_ne_nil (Nat.toDigits_ne_nil (n := n) (b := 10))
  have hc : c.isDigit = true :=
    Nat.isDigit_of_mem_toDigits (by decide) (by decide) (heq ▸ List.mem_cons_self)
  rw [heq]
  unfold constant?
  split
  next hparen =>
    rw [(List.cons.inj hparen).1] at hc
    cases hc
  next =>
    unfold signed?
    split
    next hminus =>
      rw [(List.cons.inj hminus).1] at hc
      cases hc
    next =>
      rw [← heq, decimal?_toDigits h]
      rfl

/-- **The literal of an integer means it.** The least integer is written
as a difference, since the digits of its opposite do not fit. -/
theorem constant?_intLiteral (n : Int32) : constant? (intLiteral n).toList = some n.toInt := by
  by_cases hmin : n = Int32.minValue
  · subst hmin
    rfl
  have hne : n.toInt ≠ Int32.minValue.toInt := fun h => hmin (Int32.toInt_inj.mp h)
  have hbounds : -2 ^ 31 ≤ n.toInt ∧ n.toInt < 2 ^ 31 := ⟨n.le_toInt, n.toInt_lt⟩
  rw [Int32.toInt_minValue] at hne
  rw [intLiteral, if_neg hmin]
  show constant? (Int.repr n.toInt).toList = some n.toInt
  generalize n.toInt = i at hne hbounds
  cases i with
  | ofNat m =>
    rw [Int.ofNat_eq_natCast] at hbounds
    rw [Int.repr, Nat.toList_repr]
    exact constant?_toDigits (by omega)
  | negSucc m =>
    rw [Int.repr, String.toList_append, Nat.toList_repr]
    show (decimal? (Nat.toDigits 10 (m + 1))).map (fun n : Nat => -(n : Int)) = some (Int.negSucc m)
    rw [decimal?_toDigits (by omega)]
    rfl

/-- The decimal text of the least integer would not do. -/
example : constant? (toString Int32.minValue.toInt).toList = none := by decide

/-- **The literal of a value initializes it.** -/
theorem initializes_literal : (v : Value) → Initializes v.literal.toList v
  | .int n => .int (constant?_intLiteral n)
  | .tuple items => by
    have hitems : ∀ v ∈ items, Initializes v.literal.toList v := fun v _ => initializes_literal v
    rw [literal, literalItems_eq_map, String.toList_append, String.toList_append,
      String.toList_intercalate, List.append_assoc, List.map_map]
    refine .tuple ?_
    rw [List.forall₂_map_left_iff, List.forall₂_same]
    exact hitems

end Value

/-! ## Lists of values in code -/

namespace Block

/-- The initializers of a list, in front of the brace that ends them, are
the text of a tuple behind its brace. -/
theorem toList_valueList (items : List Value) :
    (valueList items).toList ++ ['\x7d'] = Value.braces.inner items := by
  cases items with
  | nil => rfl
  | cons v items =>
    rw [Value.Style.inner_cons]
    exact Value.braces.toList_intercalate v items fun w _ => Value.toList_literal w

/-- **A list of values is told from its initializers** and the brace that
ends them, whatever follows. -/
theorem valueList_append_inj {xs ys : List Value} (cs ds : List Char)
    (h : (valueList xs).toList ++ '\x7d' :: cs = (valueList ys).toList ++ '\x7d' :: ds) :
    xs = ys := by
  rw [← List.singleton_append, ← List.append_assoc, toList_valueList, ← List.singleton_append,
    ← List.append_assoc, toList_valueList] at h
  exact (Value.braces.inner_append_inj xs ys cs ds h).1

/-- A list of values is told from its initializers where it is filled
in. -/
theorem eq_of_valueList_append {xs ys : List Value} {tail tail' : String}
    (h : valueList xs ++ ("\x7d, " ++ tail) = valueList ys ++ ("\x7d, " ++ tail')) : xs = ys := by
  rw [← String.toList_inj, String.toList_append, String.toList_append, String.toList_append,
    String.toList_append] at h
  exact valueList_append_inj _ _ h

theorem eq_of_valuesConstructor {name rest rest' : String} {xs ys : List Value}
    (h : valuesConstructor name xs rest = valuesConstructor name ys rest') : xs = ys := by
  have htext := Code.line.inj h
  simp only [String.append_assoc, String.append_right_inj] at htext
  exact eq_of_valueList_append htext

/-- **A list of values is told from the text of a struct** whose
constructor fills it in. -/
theorem eq_of_render_struct {name rest rest' : String} (before : List Code)
    {after after' : List Code} {xs ys : List Value}
    (h : Code.render [Code.struct name (before ++ valuesConstructor name xs rest :: after), .gap]
      = Code.render [Code.struct name (before ++ valuesConstructor name ys rest' :: after'),
          .gap]) :
    xs = ys := by
  simp only [Code.render, Code.struct, Code.renderAllAt, Code.renderAt, Code.renderAllAt_append,
    valuesConstructor, Code.indented, String.append_assoc, String.append_right_inj] at h
  exact eq_of_valueList_append h

end Block

/-! ## Every text at once -/

/-- **The texts of values are unambiguous.** Values are told from their
displays and from their literals, lists of values from their
initializers, from the constructor that fills them in, and from the code
of the generator or the enumerator that has them. The literal of an
integer is a constant that means it, made of decimal literals that fit,
and so the literal of a value initializes it. -/
theorem Value.texts_exact :
    (∀ v w : Value, v.display = w.display → v = w) ∧
    (∀ v w : Value, v.literal = w.literal → v = w) ∧
    (∀ xs ys : List Value, Block.valueList xs = Block.valueList ys → xs = ys) ∧
    (∀ name xs ys rest rest', Block.valuesConstructor name xs rest
      = Block.valuesConstructor name ys rest' → xs = ys) ∧
    (∀ (s : Program) (name : String) (v w : Values), v.ty.same w.ty = true → v.items ≠ w.items →
      Code.render (s.codeOf name (.generator (.values v)))
          ≠ Code.render (s.codeOf name (.generator (.values w))) ∧
        Code.render (s.codeOf name (.enumerator (.values v)))
          ≠ Code.render (s.codeOf name (.enumerator (.values w)))) ∧
    (∀ n : Int32, constant? (intLiteral n).toList = some n.toInt) ∧
    ∀ v : Value, Initializes v.literal.toList v := by
  have hends : EndsLiteral [] := nofun
  refine ⟨?_, ?_, ?_, fun _ _ _ _ _ => Block.eq_of_valuesConstructor, ?_,
    constant?_intLiteral, initializes_literal⟩
  · intro v w h
    rw [← String.toList_inj, toList_display, toList_display] at h
    exact (parentheses.text_append_inj v w [] [] hends hends (congrArg (· ++ []) h)).1
  · intro v w h
    exact (literal_append_inj v w [] [] hends hends (by rw [h])).1
  · intro xs ys h
    exact Block.valueList_append_inj [] [] (by rw [h])
  · intro s name v w hty hne
    have htype : s.typeName v.ty = s.typeName w.ty := by
      rw [Program.typeName_eq, Program.typeName_eq, Ty.layout_congr (Ty.same_iff.mp hty)]
    simp only [Program.codeOf, htype]
    -- two lines with the members stand in front of the constructor
    exact ⟨fun h => hne (Block.eq_of_render_struct [_, _] h),
      fun h => hne (Block.eq_of_render_struct [_, _] h)⟩

/-- Texts that are equal are of equal values, and `[1, 2]` and `[2, 1]`
make a difference to the code. -/
theorem Value.texts_exact_pair :
    Value.tuple [.int (1 - 2)] = .tuple [.int (-1)] ∧
    Value.tuple [.tuple [], .int 3] = .tuple [.tuple [], .int (1 + 2)] ∧
    [Value.int (1 - 2)] = [.int (-1)] ∧
    [Value.tuple [.int 0]] = [.tuple [.int (1 - 1)]] ∧
    Code.render ((Program.start "" "").codeOf "g" (.generator (.values ⟨.int, [.int 1, .int 2]⟩)))
      ≠ Code.render
        ((Program.start "" "").codeOf "g" (.generator (.values ⟨.int, [.int 2, .int 1]⟩))) :=
  ⟨texts_exact.1 _ _ rfl, texts_exact.2.1 _ _ rfl, texts_exact.2.2.1 _ _ rfl,
    texts_exact.2.2.2.1 "g" _ _ "pos(0)" "pos(0)" rfl,
    (texts_exact.2.2.2.2.1 _ _ ⟨.int, [.int 1, .int 2]⟩ ⟨.int, [.int 2, .int 1]⟩
      (Ty.same_iff.mpr rfl) (by decide)).1⟩

end Specimen
