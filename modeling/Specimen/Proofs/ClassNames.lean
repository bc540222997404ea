import Mathlib.Data.Finset.Card
import Mathlib.Data.Finset.Dedup
import Specimen.Proofs.Made
import Specimen.Proofs.Redeclaring

/-!
# The names of classes

A class is called like its product, or `qit_Product` and a number if the
product has no name. Where that name is used, the search goes on to the
same name with `_1`, with `_2` and so on. Nothing in a turn of the
search says that there is a last one: products are called what their
makers like, and `P`, `P_1` and `P_1_1` may all be used when another
product called `P` comes. What ends the search is that it looks at no
name twice. So each turn needs a used name of its own, and there are no
more turns than used names.

`Program.Searched` is the search without any limit, and
`Program.reserveClass_exact` says how it ends, and what the names are
that any number of classes take one after another.
-/

namespace Specimen

namespace Program

/-! ## The search for a name -/

/-- **The names that are looked at** for a class, in order. -/
def candidate (base : String) : Nat → String
  | 0 => base
  | n + 1 => numbered base (n + 1)

/-- **A search** for the name of a class. -/
structure Search where
  /-- The name that is looked at. -/
  name : String
  /-- The number of the name to look at next. -/
  next : Nat

/-- **What a search comes to** in a number of turns. It begins with the
base name, and turns to the next name as long as the one it looks at is
used. -/
inductive Searched (used : List String) (base : String) : Nat → Search → Prop where
  /-- The base name is looked at first. -/
  | start : Searched used base 0 ⟨base, 1⟩
  /-- A used name is given up for the next one. -/
  | turn {k : Nat} {x : Search} (h : Searched used base k x) (hused : x.name ∈ used) :
      Searched used base (k + 1) ⟨numbered base x.next, x.next + 1⟩

theorem numbered_ne (base : String) (n : Nat) : numbered base n ≠ base := by
  intro h
  have hlength := congrArg String.length h
  have hunderscore : "_".length = 1 := rfl
  simp only [numbered, String.length_append] at hlength
  omega

/-- **No name is looked at twice.** -/
theorem candidate_injective (base : String) : (candidate base).Injective := by
  intro i j h
  cases i with
  | zero =>
    cases j with
    | zero => rfl
    | succ j => exact absurd h.symm (numbered_ne base (j + 1))
  | succ i =>
    cases j with
    | zero => exact absurd h (numbered_ne base (i + 1))
    | succ j => exact numbered_injective base h

section

variable {used : List String} {base : String} {k : Nat} {x : Search}

/-- **Where a search is** after some turns: all candidates before the one
it looks at are used. -/
theorem Searched.spec (h : Searched used base k x) :
    x = ⟨candidate base k, k + 1⟩ ∧ ∀ j < k, candidate base j ∈ used := by
  induction h with
  | start => exact ⟨rfl, nofun⟩
  | @turn k x _ hused ih =>
    obtain ⟨rfl, hbefore⟩ := ih
    refine ⟨rfl, fun j hj => ?_⟩
    rcases Nat.lt_succ_iff_lt_or_eq.mp hj with hj | rfl
    · exact hbefore j hj
    · exact hused

/-- **A search takes no more turns than there are used names**, because
each turn gave up another of them. -/
theorem Searched.le_card (h : Searched used base k x) : k ≤ used.toFinset.card := by
  have hmaps : Set.MapsTo (candidate base) (Finset.range k) used.toFinset := by
    intro j hj
    simpa using h.spec.2 j (by simpa using hj)
  simpa using Finset.card_le_card_of_injOn _ hmaps (candidate_injective base).injOn

/-- A search does not go past a name that is not used. -/
theorem Searched.le_of_not_mem (h : Searched used base k x) {j : Nat}
    (hfree : candidate base j ∉ used) : k ≤ j := by
  by_contra hlt
  exact hfree (h.spec.2 j (Nat.lt_of_not_le hlt))

/-- Looking for a free name with a limit goes the way of the search. -/
theorem Searched.exists_freeName (h : Searched used base k x) (hused : x.name ∈ used) (fuel : Nat) :
    ∃ j, Searched used base j ⟨freeName used base x.next fuel, j + 1⟩ := by
  induction fuel generalizing k x with
  | zero =>
    -- the limit is reached at a name that was not looked at, which is the next
    obtain ⟨rfl, -⟩ := h.spec
    exact ⟨k + 1, h.turn hused⟩
  | succ fuel ih =>
    unfold freeName
    split
    next htaken => exact ih (h.turn hused) htaken
    next =>
      obtain ⟨rfl, -⟩ := h.spec
      exact ⟨k + 1, h.turn hused⟩

/-- **The search ends with the name that a class takes**: the limit on
the candidates never shows. -/
theorem exists_searched_className (used : List String) (base : String) :
    ∃ k, Searched used base k ⟨className used base, k + 1⟩ := by
  unfold className
  split
  next hused => exact Searched.start.exists_freeName hused used.length
  next => exact ⟨0, .start⟩

end

/-! ## Names taken one after another -/

theorem named_of_made {p : Product} (h : Made (.product p)) : (Node.productClass p).Named := by
  have hp : p.WellFormed := h.wellFormed
  cases hp with
  | intro name fields distinct => exact name

/-- **Names taken** for the classes of products, one after another. In
between a program may do anything that leaves the used names alone, such
as number what is nameless and write declarations. -/
inductive Reserves (s : Program) : List String → Program → Prop where
  /-- No name is taken. -/
  | nil : Reserves s [] s
  /-- A name is taken for one more product. -/
  | reserve {names : List String} {t : Program} {p : Product} (h : Reserves s names t)
      (hp : (Node.productClass p).Named) :
      Reserves s (names ++ [(t.reserveClass p).1]) (t.reserveClass p).2
  /-- The program goes on without taking a name. -/
  | other {names : List String} {t t' : Program} (h : Reserves s names t)
      (hused : t'.usedNames = t.usedNames) : Reserves s names t'

section

variable {s t : Program} {names : List String}

/-- **Names taken one after another are remembered**, and each is new. By
induction on the names: the first is found free among those remembered
before, and the others are found free with the first among them. -/
theorem Reserves.spec (h : Reserves s names t) :
    t.usedNames = s.usedNames ++ names ∧ names.Nodup ∧
      ∀ name ∈ names, isIdentifier name = true ∧ name ∉ s.usedNames := by
  induction h with
  | nil => exact ⟨(List.append_nil _).symm, .nil, nofun⟩
  | @reserve names t p _ hp ih =>
    obtain ⟨hused, hnodup, hnames⟩ := ih
    have hidentifier := isIdentifier_reserveClass hp t
    have hnew := className_not_mem t.usedNames (t.classBase p)
    rw [reserveClass_eq] at hidentifier ⊢
    generalize className t.usedNames (t.classBase p) = name at hidentifier hnew ⊢
    rw [hused, List.mem_append, not_or] at hnew
    show t.usedNames ++ [name] = s.usedNames ++ (names ++ [name]) ∧ (names ++ [name]).Nodup ∧
      ∀ other ∈ names ++ [name], isIdentifier other = true ∧ other ∉ s.usedNames
    refine ⟨by rw [hused, List.append_assoc], ?_, ?_⟩
    · rw [← List.concat_eq_append]
      exact hnodup.concat hnew.2
    · exact List.forall_mem_append.mpr
        ⟨hnames, List.forall_mem_singleton.mpr ⟨hidentifier, hnew.1⟩⟩
  | other _ hused ih =>
    rw [hused]
    exact ih

/-- **A step of declaring takes a name** if it visits a class, and
otherwise none. -/
theorem Reserves.step {x y : Program × List Begun} (h : Reserves s names x.1)
    (hstep : Step Node.Named x y) : ∃ more, Reserves s more y.1 := by
  cases hstep with
  | @visit t begun n hn _ =>
    have hmarked : Reserves s names { t with visited := t.visited ++ [n.key] } := h.other rfl
    cases n with
    | productClass p => exact ⟨_, hmarked.reserve hn⟩
    | generator | enumerator | function => exact ⟨names, hmarked⟩
  | @write t begun b _ =>
    refine ⟨names, h.other ?_⟩
    obtain ⟨n, name⟩ := b
    cases n <;> rfl

/-- Steps of declaring take names one after another. -/
theorem Reserves.steps {x y : Program × List Begun} (h : Reserves s names x.1)
    (hsteps : Steps Node.Named x y) : ∃ more, Reserves s more y.1 := by
  induction hsteps with
  | refl => exact ⟨names, h⟩
  | tail _ hstep ih =>
    obtain ⟨more, hmore⟩ := ih
    exact hmore.step hstep

/-- **Whatever is done with a program takes names one after another.**
Each operation consists of steps, and only the visit to a class takes a
name. -/
theorem Later.reserves (h : Later s t) (hs : Settled s []) (hwritten : Written s) :
    ∃ names, Reserves s names t := by
  induction h with
  | refl => exact ⟨[], .nil⟩
  | @tail t u hlater hnext ih =>
    obtain ⟨names, hnames⟩ := ih
    obtain ⟨ht, hwritten', -⟩ := Later.settled hlater hs hwritten
    obtain ⟨args, hsteps⟩ := hnext.steps ht hwritten'
    have hargs : Reserves s names { t with args } := hnames.other rfl
    exact hargs.steps hsteps

end

/-! ## The names of classes -/

/-- **The name of a class is the first that is free**, and only it is
remembered. It is found in no more turns than there are used names, so
the number to look at next is at most one above that, and there are no
turns left.

Names that are taken one after another are identifiers and all differ,
from each other and from those that were used before. That is so for
the classes of a program whatever is done with it, and none of them is
called `main`. -/
theorem reserveClass_exact :
    (∀ (s : Program) (p : Product), ∃ k ≤ s.usedNames.toFinset.card,
      let base := s.classBase p
      let name := candidate base k
      s.reserveClass p = (name, { s with
        usedNames := s.usedNames ++ [name]
        nextId := s.nextId + if p.name.isNone then 1 else 0 }) ∧
      name ∉ s.usedNames ∧ (∀ j < k, candidate base j ∈ s.usedNames) ∧
      Searched s.usedNames base k ⟨name, k + 1⟩ ∧
      ∀ j x, Searched s.usedNames base j x → j ≤ k) ∧
    (∀ (s t : Program) (names : List String), "main" ∈ s.usedNames → Reserves s names t →
      t.usedNames = s.usedNames ++ names ∧ names.Nodup ∧
        ∀ name ∈ names, isIdentifier name = true ∧ name ∉ s.usedNames ∧ name ≠ "main") ∧
    ∀ (workingDir sourceDir : String) (t : Program), Later (start workingDir sourceDir) t →
      ∃ names, Reserves (start workingDir sourceDir) names t := by
  refine ⟨fun s p => ?_, fun s t names hmain h => ?_, fun workingDir sourceDir t h => ?_⟩
  · obtain ⟨k, hk⟩ := exists_searched_className s.usedNames (s.classBase p)
    obtain ⟨hname, hbefore⟩ := hk.spec
    have hname : className s.usedNames (s.classBase p) = candidate (s.classBase p) k :=
      congrArg Search.name hname
    have hfree := className_not_mem s.usedNames (s.classBase p)
    rw [hname] at hk hfree
    refine ⟨k, hk.le_card, ?_, hfree, hbefore, hk, fun j x hj => hj.le_of_not_mem hfree⟩
    rw [reserveClass_eq, hname]
  · obtain ⟨hused, hnodup, hnames⟩ := h.spec
    refine ⟨hused, hnodup, fun name hname => ?_⟩
    obtain ⟨hidentifier, hnew⟩ := hnames name hname
    exact ⟨hidentifier, hnew, fun heq => hnew (heq ▸ hmain)⟩
  · exact Later.reserves h (settled_start workingDir sourceDir) rfl

/-- Five products, of which two are called the same, one like a second
class of theirs, and one like `main`; and a program that is asked for
the name of the first. -/
theorem reserveClass_exact_five :
    let product (name : Option String) (field : String) : Product :=
      ⟨name, [⟨field, .int, Ty.int.generator, Ty.int.enumerator⟩]⟩
    let names := ["P", "P_1", "P_2", "main_1", "qit_Product0"]
    let s := start "/" "/src"
    let t := [product "P" "x", product "P_1" "x", product "P" "y", product "main" "x",
      product none "x"].foldl (fun s p => (s.reserveClass p).2) s
    let u := (s.askType (.product (product "P" "x"))).2
    ("main" ∈ s.usedNames ∧ Reserves s names t ∧ t.usedNames = "main" :: names ∧ names.Nodup) ∧
      Later s u ∧ ∃ taken, Reserves s taken u := by
  intro product names s t u
  have hnamed : ∀ name field, Product.ofFields name [(some field, .int)]
      = .ok (product name field) → (Node.productClass (product name field)).Named :=
    fun _ _ hp => named_of_made (.ofFields (List.forall_mem_singleton.mpr .int) hp)
  have hmain : "main" ∈ s.usedNames := List.mem_singleton_self _
  have hfirst : Reserves s _ _ := .reserve .nil (hnamed "P" "x" rfl)
  have hsecond := hfirst.reserve (hnamed "P_1" "x" rfl)
  have hthird := hsecond.reserve (hnamed "P" "y" rfl)
  have hfourth := hthird.reserve (hnamed "main" "x" rfl)
  obtain ⟨taken, htaken, hnames⟩ : ∃ taken, Reserves s taken t ∧ taken = names :=
    ⟨_, hfourth.reserve (hnamed none "x" rfl), by decide +kernel⟩
  rw [hnames] at htaken
  have hasked : Later s u := .single (.askType (by decide))
  obtain ⟨-, hall, hlater⟩ := reserveClass_exact
  obtain ⟨hused, hnodup, -⟩ := hall s t names hmain htaken
  exact ⟨⟨hmain, htaken, hused, hnodup⟩, hasked, hlater "/" "/src" u hasked⟩

end Program

end Specimen
