import Specimen.Program.Emission
import Specimen.Proofs.Names

/-!
# The names a program gives

A class takes the name of its product or, where that is used, the same
name with an underscore and a number behind it. Such a name is never
one that is used already (`Program.className_not_mem`), as there are
more numbers than used names, and it is an identifier if the product's
name is (`Program.isIdentifier_reserveClass`). What is nameless takes a
number behind a fixed beginning.

Two names with numbers behind them are the same only if both their
beginnings and their numbers are (`eq_of_append_toString_eq`), as long
as the beginnings do not end in a digit. So a number with an underscore
before it is enough to tell a class from everything that was nameless,
and from a type of the language (`Program.not_reserved_numbered`).
-/

namespace Specimen

/-! ## Numbers behind names -/

theorem append_toString_injective (base : String) :
    (fun i : Nat => base ++ toString i).Injective := fun _ _ h =>
  Nat.repr_injective ((String.append_right_inj base).mp h)

/-- Whether a text ends in a digit. -/
def endsInDigit (text : String) : Bool := text.toList.getLast?.any Char.isDigit

/-- **A number is told from what follows it**, unless a digit does. -/
theorem toString_append_inj {m n : Nat} {s t : String} (hs : ∀ c ∈ s.toList.head?, c.isDigit = false)
    (ht : ∀ c ∈ t.toList.head?, c.isDigit = false) (h : toString m ++ s = toString n ++ t) :
    m = n ∧ s = t := by
  have hlists := congrArg String.toList h
  rw [String.toList_append, String.toList_append] at hlists
  obtain ⟨hnumber, hrest⟩ := append_inj_of_forall (fun _ => isDigit_of_mem_toString)
    (fun _ => isDigit_of_mem_toString) hs ht hlists
  exact ⟨Nat.repr_injective (String.toList_injective hnumber), String.toList_injective hrest⟩

/-- What is left of a reversed text with a number behind it, without the
digits it begins with. -/
theorem dropWhile_reverse_append_toString {x : String} (hx : endsInDigit x = false) (i : Nat) :
    (x ++ toString i).toList.reverse.dropWhile Char.isDigit = x.toList.reverse := by
  have hdigits : ∀ c ∈ (toString i).toList.reverse, c.isDigit = true := fun c hc =>
    isDigit_of_mem_toString (List.mem_reverse.mp hc)
  rw [String.toList_append, List.reverse_append, List.dropWhile_append_of_pos hdigits]
  rw [endsInDigit, ← List.head?_reverse] at hx
  cases hlist : x.toList.reverse with
  | nil => rfl
  | cons c rest =>
    rw [hlist] at hx
    have hc : c.isDigit = false := hx
    rw [List.dropWhile_cons_of_neg]
    rw [hc]
    exact Bool.false_ne_true

/-- **A number behind a name is told from the name**, unless the name
ends in a digit. -/
theorem eq_of_append_toString_eq {x y : String} {i j : Nat} (hx : endsInDigit x = false)
    (hy : endsInDigit y = false) (h : x ++ toString i = y ++ toString j) : x = y := by
  have hlists := congrArg (fun s : String => s.toList.reverse.dropWhile Char.isDigit) h
  simp only [dropWhile_reverse_append_toString hx, dropWhile_reverse_append_toString hy] at hlists
  exact String.toList_injective (List.reverse_injective hlists)

namespace Program

/-! ## Names of classes -/

theorem numbered_injective (base : String) : (numbered base).Injective :=
  append_toString_injective (base ++ "_")

/-- The search for a free name gives a name with a number. -/
theorem exists_freeName_eq (used : List String) (base : String) (n fuel : Nat) :
    ∃ i, freeName used base n fuel = numbered base i := by
  induction fuel generalizing n with
  | zero => exact ⟨n, by rw [freeName]⟩
  | succ fuel ih =>
    rw [freeName]
    split
    · exact ih (n + 1)
    · exact ⟨n, rfl⟩

/-- A free name is found if one of the candidates looked at is free. -/
theorem freeName_not_mem {used : List String} {base : String} {i : Nat}
    (hfree : numbered base i ∉ used) {n fuel : Nat} (hge : n ≤ i) (hle : i ≤ n + fuel) :
    freeName used base n fuel ∉ used := by
  induction fuel generalizing n with
  | zero =>
    rw [freeName, Nat.le_antisymm hge hle]
    exact hfree
  | succ fuel ih =>
    rw [freeName]
    split
    next htaken =>
      have hne : n ≠ i := fun h => hfree (h ▸ htaken)
      exact ih (Nat.lt_of_le_of_ne hge hne) (by omega)
    next hnew => exact hnew

/-- A class takes its base name or this name with a number. -/
theorem className_eq_or (used : List String) (base : String) :
    className used base = base ∨ ∃ i, className used base = numbered base i := by
  unfold className
  split
  · exact .inr (exists_freeName_eq used base 1 used.length)
  · exact .inl rfl

/-- **The name a class takes is new.** There are more candidates than
names that are used, so one of them is free, and the search stops at the
first that is. -/
theorem className_not_mem (used : List String) (base : String) :
    className used base ∉ used := by
  unfold className
  split
  next =>
    obtain ⟨i, hge, hle, hfree⟩ :=
      exists_not_mem_of_injective (numbered_injective base) used 1
    exact freeName_not_mem hfree hge hle
  next hnew => exact hnew

theorem isIdentifier_numbered {base : String} (h : isIdentifier base = true) (i : Nat) :
    isIdentifier (numbered base i) = true := by
  have hunderscore : ∀ c ∈ "_".toList, continuesIdentifier c = true :=
    List.forall_mem_singleton.mpr rfl
  exact isIdentifier_append_toString (isIdentifier_append h hunderscore) i

theorem isIdentifier_className {base : String} (h : isIdentifier base = true)
    (used : List String) : isIdentifier (className used base) = true := by
  rcases className_eq_or used base with heq | ⟨i, heq⟩
  · rw [heq]
    exact h
  · rw [heq]
    exact isIdentifier_numbered h i

/-- The base name of a product's class: the product's own name, or a
numbered one. -/
def classBase (s : Program) (p : Product) : String :=
  p.name.getD ("qit_Product" ++ toString s.nextId)

/-- **Taking a name for a class** remembers it, and uses a number if the
product has no name. -/
theorem reserveClass_eq (s : Program) (p : Product) :
    s.reserveClass p = (className s.usedNames (s.classBase p), { s with
      usedNames := s.usedNames ++ [className s.usedNames (s.classBase p)]
      nextId := s.nextId + if p.name.isNone then 1 else 0 }) := by
  unfold reserveClass classBase
  cases p.name <;> rfl

/-- **The name a class takes is an identifier** if the product's own
is. -/
theorem isIdentifier_reserveClass {p : Product} (hp : p.name.all isIdentifier = true)
    (s : Program) : isIdentifier (s.reserveClass p).1 = true := by
  rw [reserveClass_eq]
  refine isIdentifier_className ?_ _
  unfold classBase
  cases hname : p.name with
  | none => exact isIdentifier_append_toString (by decide) _
  | some name =>
    rw [hname] at hp
    exact hp

/-! ## Names of what is nameless -/

/-- What the names of generators and of enumerators begin with. -/
def handleBases : List String := ["qit_gen", "qit_iter"]

/-- **The names that generators and enumerators are given**, under any
number. -/
def IsHandle (name : String) : Prop := ∃ base ∈ handleBases, ∃ i : Nat, name = base ++ toString i

/-- **Reserved names**: that of the integers, and all that generators and
enumerators can be given. -/
def Reserved (name : String) : Prop := name = "int" ∨ IsHandle name

theorem endsInDigit_of_mem_handleBases : ∀ base ∈ handleBases, endsInDigit base = false := by
  decide

/-- **A generator's or enumerator's name tells its number.** None of the
beginnings ends in a digit, so the number is all the digits at the end. -/
theorem handle_injective {x y : String} {i j : Nat} (hx : x ∈ handleBases)
    (hy : y ∈ handleBases) (h : x ++ toString i = y ++ toString j) : i = j := by
  have hxy := eq_of_append_toString_eq (endsInDigit_of_mem_handleBases x hx)
    (endsInDigit_of_mem_handleBases y hy) h
  subst hxy
  exact append_toString_injective x h

theorem ne_of_underscore_mem {name : String} (h : '_' ∈ name.toList) :
    name ≠ "int" ∧ name ≠ "main" := by
  constructor <;> rintro rfl <;> exact absurd h (by decide)

theorem underscore_mem_of_mem_handleBases : ∀ base ∈ handleBases, '_' ∈ base.toList := by
  decide

theorem underscore_mem_append {base : String} (h : '_' ∈ base.toList) (rest : String) :
    '_' ∈ (base ++ rest).toList := by
  rw [String.toList_append]
  exact List.mem_append_left _ h

/-- A text that ends differently from the beginnings, and not in a digit,
does not become reserved by a number behind it. -/
theorem not_reserved_append {base : String} (hunderscore : '_' ∈ base.toList)
    (hdigit : endsInDigit base = false) (hbase : base ∉ handleBases)
    (i : Nat) : ¬Reserved (base ++ toString i) := by
  rintro (hint | ⟨other, hother, j, h⟩)
  · exact (ne_of_underscore_mem (underscore_mem_append hunderscore _)).1 hint
  · rw [eq_of_append_toString_eq hdigit (endsInDigit_of_mem_handleBases other hother) h] at hbase
    exact hbase hother

/-- **A name with an underscore and a number is not reserved.** -/
theorem not_reserved_numbered (base : String) (i : Nat) : ¬Reserved (numbered base i) := by
  have hlast : (base ++ "_").toList.getLast? = some '_' := by
    rw [String.toList_append]
    exact List.getLast?_concat
  refine not_reserved_append ?_ ?_ ?_ i
  · exact List.mem_of_getLast? hlast
  · rw [endsInDigit, hlast]
    rfl
  · intro hmem
    have hne : ∀ base ∈ handleBases, base.toList.getLast? ≠ some '_' := by decide
    exact hne _ hmem hlast

theorem eq_of_reserved_className {used : List String} {base : String}
    (h : Reserved (className used base)) : className used base = base := by
  rcases className_eq_or used base with heq | ⟨i, heq⟩
  · exact heq
  · rw [heq] at h
    exact absurd h (not_reserved_numbered base i)

end Program

end Specimen
