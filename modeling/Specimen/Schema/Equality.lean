import Specimen.Schema.Canonical

/-!
# Sameness of types, generators and enumerators

Two objects are **the same** when their canonical forms are equal: equal
types may be shared by a generated program, types of equal layout need
not be. The canonical forms are not built to find out: the objects are
gone through side by side, and those that are one and the same in memory
are recognized at once.
-/

namespace Specimen

/-- Decides whether two objects have one image, and looks at first
whether they are one and the same in memory. -/
@[inline] def decideImage {α β : Type} (f : α → β) (a b : α) (k : Unit → Decidable (f a = f b)) :
    Decidable (f a = f b) :=
  match h : withPtrEq a b (fun _ => @decide _ (k ()))
      (fun hab => @decide_eq_true _ (k ()) (congrArg f hab)) with
  | true => isTrue (@of_decide_eq_true _ (k ()) h)
  | false => isFalse (@of_decide_eq_false _ (k ()) h)

mutual

/-- Whether two types are the same. -/
def Ty.decSame : (a b : Ty) → Decidable (a.canonical = b.canonical)
  | .int, .int => isTrue rfl
  | .range a, .range a₁ =>
    decidable_of_iff (a = a₁) (by simp [Ty.canonical])
  | .values a, .values a₁ =>
    have := Values.decSame a a₁
    decidable_of_iff (a.canonical = a₁.canonical) (by simp [Ty.canonical])
  | .product a, .product a₁ =>
    have := Product.decSame a a₁
    decidable_of_iff (a.canonical = a₁.canonical) (by simp [Ty.canonical])
  | .derived a, .derived a₁ =>
    have := Derived.decSame a a₁
    decidable_of_iff (a.canonical = a₁.canonical) (by simp [Ty.canonical])
  | .int, .range _ => isFalse (by simp [Ty.canonical])
  | .int, .values _ => isFalse (by simp [Ty.canonical])
  | .int, .product _ => isFalse (by simp [Ty.canonical])
  | .int, .derived _ => isFalse (by simp [Ty.canonical])
  | .range _, .int => isFalse (by simp [Ty.canonical])
  | .range _, .values _ => isFalse (by simp [Ty.canonical])
  | .range _, .product _ => isFalse (by simp [Ty.canonical])
  | .range _, .derived _ => isFalse (by simp [Ty.canonical])
  | .values _, .int => isFalse (by simp [Ty.canonical])
  | .values _, .range _ => isFalse (by simp [Ty.canonical])
  | .values _, .product _ => isFalse (by simp [Ty.canonical])
  | .values _, .derived _ => isFalse (by simp [Ty.canonical])
  | .product _, .int => isFalse (by simp [Ty.canonical])
  | .product _, .range _ => isFalse (by simp [Ty.canonical])
  | .product _, .values _ => isFalse (by simp [Ty.canonical])
  | .product _, .derived _ => isFalse (by simp [Ty.canonical])
  | .derived _, .int => isFalse (by simp [Ty.canonical])
  | .derived _, .range _ => isFalse (by simp [Ty.canonical])
  | .derived _, .values _ => isFalse (by simp [Ty.canonical])
  | .derived _, .product _ => isFalse (by simp [Ty.canonical])

/-- Whether two lists of values of a type are the same. -/
def Values.decSame : (a b : Values) → Decidable (a.canonical = b.canonical)
  | ⟨a, b⟩, ⟨a₁, b₁⟩ =>
    have := Ty.decSame a a₁
    decidable_of_iff (a.canonical = a₁.canonical ∧ b = b₁) (by simp [Values.canonical])

/-- Whether two products are the same. -/
def Product.decSame : (a b : Product) → Decidable (a.canonical = b.canonical)
  | ⟨a, b⟩, ⟨a₁, b₁⟩ => decideImage Product.canonical ⟨a, b⟩ ⟨a₁, b₁⟩ fun _ =>
    have := fieldsDecSame b b₁
    decidable_of_iff (a = a₁ ∧ fieldsCanonical b = fieldsCanonical b₁) (by simp [Product.canonical])

/-- Whether two lists of fields are the same. -/
def fieldsDecSame : (a b : List Field) → Decidable (fieldsCanonical a = fieldsCanonical b)
  | [], [] => isTrue rfl
  | x :: xs, y :: ys =>
    have := Field.decSame x y
    have := fieldsDecSame xs ys
    decidable_of_iff (x.canonical = y.canonical ∧ fieldsCanonical xs = fieldsCanonical ys)
      (by simp [fieldsCanonical])
  | [], _ :: _ => isFalse (by simp [fieldsCanonical])
  | _ :: _, [] => isFalse (by simp [fieldsCanonical])

/-- Whether two fields are the same. -/
def Field.decSame : (a b : Field) → Decidable (a.canonical = b.canonical)
  | ⟨a, b, c, d⟩, ⟨a₁, b₁, c₁, d₁⟩ =>
    have := Ty.decSame b b₁
    have := Generator.decSame c c₁
    have := Enumerator.decSame d d₁
    decidable_of_iff
      (a = a₁ ∧ b.canonical = b₁.canonical ∧ c.canonical = c₁.canonical ∧
        d.canonical = d₁.canonical)
      (by simp [Field.canonical])

/-- Whether two derived products are the same. -/
def Derived.decSame : (a b : Derived) → Decidable (a.canonical = b.canonical)
  | ⟨a, b, c⟩, ⟨a₁, b₁, c₁⟩ => decideImage Derived.canonical ⟨a, b, c⟩ ⟨a₁, b₁, c₁⟩ fun _ =>
    have := Parent.decSame a a₁
    have := generatorOverridesDecSame b b₁
    have := enumeratorOverridesDecSame c c₁
    decidable_of_iff
      (a.canonical = a₁.canonical ∧
        generatorOverridesCanonical b = generatorOverridesCanonical b₁ ∧
        enumeratorOverridesCanonical c = enumeratorOverridesCanonical c₁)
      (by simp [Derived.canonical])

/-- Whether two tables of generators are the same. -/
def generatorOverridesDecSame : (a b : List (String × Generator)) →
    Decidable (generatorOverridesCanonical a = generatorOverridesCanonical b)
  | [], [] => isTrue rfl
  | (m, x) :: xs, (n, y) :: ys =>
    have := Generator.decSame x y
    have := generatorOverridesDecSame xs ys
    decidable_of_iff
      ((m = n ∧ x.canonical = y.canonical) ∧
        generatorOverridesCanonical xs = generatorOverridesCanonical ys)
      (by simp [generatorOverridesCanonical])
  | [], _ :: _ => isFalse (by simp [generatorOverridesCanonical])
  | _ :: _, [] => isFalse (by simp [generatorOverridesCanonical])

/-- Whether two tables of enumerators are the same. -/
def enumeratorOverridesDecSame : (a b : List (String × Enumerator)) →
    Decidable (enumeratorOverridesCanonical a = enumeratorOverridesCanonical b)
  | [], [] => isTrue rfl
  | (m, x) :: xs, (n, y) :: ys =>
    have := Enumerator.decSame x y
    have := enumeratorOverridesDecSame xs ys
    decidable_of_iff
      ((m = n ∧ x.canonical = y.canonical) ∧
        enumeratorOverridesCanonical xs = enumeratorOverridesCanonical ys)
      (by simp [enumeratorOverridesCanonical])
  | [], _ :: _ => isFalse (by simp [enumeratorOverridesCanonical])
  | _ :: _, [] => isFalse (by simp [enumeratorOverridesCanonical])

/-- Whether two parents are the same. -/
def Parent.decSame : (a b : Parent) → Decidable (a.canonical = b.canonical)
  | .product a, .product a₁ =>
    have := Product.decSame a a₁
    decidable_of_iff (a.canonical = a₁.canonical) (by simp [Parent.canonical])
  | .derived a, .derived a₁ =>
    have := Derived.decSame a a₁
    decidable_of_iff (a.canonical = a₁.canonical) (by simp [Parent.canonical])
  | .product _, .derived _ => isFalse (by simp [Parent.canonical])
  | .derived _, .product _ => isFalse (by simp [Parent.canonical])

/-- Whether two generators are the same. -/
def Generator.decSame : (a b : Generator) → Decidable (a.canonical = b.canonical)
  | .uniform a b, .uniform a₁ b₁ =>
    decidable_of_iff (a = a₁ ∧ b = b₁) (by simp [Generator.canonical])
  | .values a, .values a₁ =>
    have := Values.decSame a a₁
    decidable_of_iff (a.canonical = a₁.canonical) (by simp [Generator.canonical])
  | .product a b, .product a₁ b₁ =>
    have := Product.decSame a a₁
    have := generatorsDecSame b b₁
    decidable_of_iff (a.canonical = a₁.canonical ∧ generatorsCanonical b = generatorsCanonical b₁)
      (by simp [Generator.canonical])
  | .call a b, .call a₁ b₁ =>
    have := Function.decSame a a₁
    have := generatorsDecSame b b₁
    decidable_of_iff (a.canonical = a₁.canonical ∧ generatorsCanonical b = generatorsCanonical b₁)
      (by simp [Generator.canonical])
  | .runArgument a b, .runArgument a₁ b₁ =>
    have := Ty.decSame b b₁
    decidable_of_iff (a = a₁ ∧ b.canonical = b₁.canonical) (by simp [Generator.canonical])
  | .uniform _ _, .values _ => isFalse (by simp [Generator.canonical])
  | .uniform _ _, .product _ _ => isFalse (by simp [Generator.canonical])
  | .uniform _ _, .call _ _ => isFalse (by simp [Generator.canonical])
  | .uniform _ _, .runArgument _ _ => isFalse (by simp [Generator.canonical])
  | .values _, .uniform _ _ => isFalse (by simp [Generator.canonical])
  | .values _, .product _ _ => isFalse (by simp [Generator.canonical])
  | .values _, .call _ _ => isFalse (by simp [Generator.canonical])
  | .values _, .runArgument _ _ => isFalse (by simp [Generator.canonical])
  | .product _ _, .uniform _ _ => isFalse (by simp [Generator.canonical])
  | .product _ _, .values _ => isFalse (by simp [Generator.canonical])
  | .product _ _, .call _ _ => isFalse (by simp [Generator.canonical])
  | .product _ _, .runArgument _ _ => isFalse (by simp [Generator.canonical])
  | .call _ _, .uniform _ _ => isFalse (by simp [Generator.canonical])
  | .call _ _, .values _ => isFalse (by simp [Generator.canonical])
  | .call _ _, .product _ _ => isFalse (by simp [Generator.canonical])
  | .call _ _, .runArgument _ _ => isFalse (by simp [Generator.canonical])
  | .runArgument _ _, .uniform _ _ => isFalse (by simp [Generator.canonical])
  | .runArgument _ _, .values _ => isFalse (by simp [Generator.canonical])
  | .runArgument _ _, .product _ _ => isFalse (by simp [Generator.canonical])
  | .runArgument _ _, .call _ _ => isFalse (by simp [Generator.canonical])

/-- Whether two lists of generators are the same. -/
def generatorsDecSame : (a b : List Generator) →
    Decidable (generatorsCanonical a = generatorsCanonical b)
  | [], [] => isTrue rfl
  | x :: xs, y :: ys =>
    have := Generator.decSame x y
    have := generatorsDecSame xs ys
    decidable_of_iff (x.canonical = y.canonical ∧ generatorsCanonical xs = generatorsCanonical ys)
      (by simp [generatorsCanonical])
  | [], _ :: _ => isFalse (by simp [generatorsCanonical])
  | _ :: _, [] => isFalse (by simp [generatorsCanonical])

/-- Whether two enumerators are the same. -/
def Enumerator.decSame : (a b : Enumerator) → Decidable (a.canonical = b.canonical)
  | .range a, .range a₁ =>
    decidable_of_iff (a = a₁) (by simp [Enumerator.canonical])
  | .values a, .values a₁ =>
    have := Values.decSame a a₁
    decidable_of_iff (a.canonical = a₁.canonical) (by simp [Enumerator.canonical])
  | .product a b, .product a₁ b₁ =>
    have := Product.decSame a a₁
    have := enumeratorsDecSame b b₁
    decidable_of_iff (a.canonical = a₁.canonical ∧ enumeratorsCanonical b = enumeratorsCanonical b₁)
      (by simp [Enumerator.canonical])
  | .once a, .once a₁ =>
    have := Generator.decSame a a₁
    decidable_of_iff (a.canonical = a₁.canonical) (by simp [Enumerator.canonical])
  | .range _, .values _ => isFalse (by simp [Enumerator.canonical])
  | .range _, .product _ _ => isFalse (by simp [Enumerator.canonical])
  | .range _, .once _ => isFalse (by simp [Enumerator.canonical])
  | .values _, .range _ => isFalse (by simp [Enumerator.canonical])
  | .values _, .product _ _ => isFalse (by simp [Enumerator.canonical])
  | .values _, .once _ => isFalse (by simp [Enumerator.canonical])
  | .product _ _, .range _ => isFalse (by simp [Enumerator.canonical])
  | .product _ _, .values _ => isFalse (by simp [Enumerator.canonical])
  | .product _ _, .once _ => isFalse (by simp [Enumerator.canonical])
  | .once _, .range _ => isFalse (by simp [Enumerator.canonical])
  | .once _, .values _ => isFalse (by simp [Enumerator.canonical])
  | .once _, .product _ _ => isFalse (by simp [Enumerator.canonical])

/-- Whether two lists of enumerators are the same. -/
def enumeratorsDecSame : (a b : List Enumerator) →
    Decidable (enumeratorsCanonical a = enumeratorsCanonical b)
  | [], [] => isTrue rfl
  | x :: xs, y :: ys =>
    have := Enumerator.decSame x y
    have := enumeratorsDecSame xs ys
    decidable_of_iff (x.canonical = y.canonical ∧ enumeratorsCanonical xs = enumeratorsCanonical ys)
      (by simp [enumeratorsCanonical])
  | [], _ :: _ => isFalse (by simp [enumeratorsCanonical])
  | _ :: _, [] => isFalse (by simp [enumeratorsCanonical])

/-- Whether two functions are the same. -/
def Function.decSame : (a b : Function) → Decidable (a.canonical = b.canonical)
  | ⟨a, b, c, d⟩, ⟨a₁, b₁, c₁, d₁⟩ =>
    have := Ty.decSame b b₁
    have := paramsDecSame c c₁
    decidable_of_iff
      (a = a₁ ∧ b.canonical = b₁.canonical ∧ paramsCanonical c = paramsCanonical c₁ ∧
        d.canonical = d₁.canonical)
      (by simp [Function.canonical])

/-- Whether two lists of parameters are the same. -/
def paramsDecSame : (a b : List Param) → Decidable (paramsCanonical a = paramsCanonical b)
  | [], [] => isTrue rfl
  | x :: xs, y :: ys =>
    have := Param.decSame x y
    have := paramsDecSame xs ys
    decidable_of_iff (x.canonical = y.canonical ∧ paramsCanonical xs = paramsCanonical ys)
      (by simp [paramsCanonical])
  | [], _ :: _ => isFalse (by simp [paramsCanonical])
  | _ :: _, [] => isFalse (by simp [paramsCanonical])

/-- Whether two parameters are the same. -/
def Param.decSame : (a b : Param) → Decidable (a.canonical = b.canonical)
  | ⟨a, b⟩, ⟨a₁, b₁⟩ =>
    have := Ty.decSame b b₁
    decidable_of_iff (a = a₁ ∧ b.canonical = b₁.canonical) (by simp [Param.canonical])

end

/-- **Whether two types are the same.** -/
def Ty.same (a b : Ty) : Bool := @decide _ (Ty.decSame a b)

theorem Ty.same_iff {a b : Ty} : a.same b = true ↔ a.canonical = b.canonical := by
  simp [Ty.same]

/-- **Whether two generators are the same.** -/
def Generator.same (a b : Generator) : Bool := @decide _ (Generator.decSame a b)

theorem Generator.same_iff {a b : Generator} : a.same b = true ↔ a.canonical = b.canonical := by
  simp [Generator.same]

/-- **Whether two enumerators are the same.** -/
def Enumerator.same (a b : Enumerator) : Bool := @decide _ (Enumerator.decSame a b)

theorem Enumerator.same_iff {a b : Enumerator} : a.same b = true ↔ a.canonical = b.canonical := by
  simp [Enumerator.same]

/-- **Whether two functions are the same.** -/
def Function.same (a b : Function) : Bool := @decide _ (Function.decSame a b)

theorem Function.same_iff {a b : Function} : a.same b = true ↔ a.canonical = b.canonical := by
  simp [Function.same]

end Specimen
