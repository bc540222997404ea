import Mathlib.Data.Int.Range
import Specimen.Schema.Basic

/-!
# Sequences with draws in them

What an enumerator goes through is a sequence, but not always one that
is known beforehand: where it takes a single value from a generator, the
value is drawn when the enumeration gets there, and drawn anew when it
gets there again. A **listing** is such a sequence. It says what comes
next, or what has to be drawn before that can be said.

Listings are to enumerators what lists are to ranges. There is a listing
for each of them (`Enumerator.listing`), and that of a product goes
through the tuples of its parts as nested loops would: for each element
of the first, with what that draws, through all tuples of the others,
with what those draw (`Listing.tuples`).

Values are drawn from a **source**, which may be anything that answers
and changes by that. Going through a listing one by one is
`Listing.next?`, and `Listing.elements` is the list of all that it
gives.
-/

namespace Specimen

/-- **A source of values**: it answers with a value of a generator, and
is another source then. -/
abbrev Source (ω : Type) := Generator → ω → Value × ω

/-- **A listing**: elements in order, some of which depend on values that
are drawn on the way. -/
inductive Listing (α : Type) where
  /-- Nothing comes any more. -/
  | nil
  /-- An element comes, and then the rest. -/
  | cons (a : α) (rest : Listing α)
  /-- A value is drawn, on which all else depends. -/
  | draw (g : Generator) (rest : Value → Listing α)

namespace Listing

variable {α β ω : Type}

/-- The listing of a list. -/
def ofList : List α → Listing α
  | [] => nil
  | a :: as => cons a (ofList as)

/-- A listing and another one behind it. -/
def append : Listing α → Listing α → Listing α
  | nil, l => l
  | cons a rest, l => cons a (rest.append l)
  | draw g rest, l => draw g fun v => (rest v).append l

instance : Append (Listing α) := ⟨append⟩

/-- A function of each element. -/
def map (f : α → β) : Listing α → Listing β
  | nil => nil
  | cons a rest => cons (f a) (rest.map f)
  | draw g rest => draw g fun v => (rest v).map f

/-- **A loop**: a listing for each element, one behind the other. -/
def bind (f : α → Listing β) : Listing α → Listing β
  | nil => nil
  | cons a rest => f a ++ rest.bind f
  | draw g rest => draw g fun v => (rest v).bind f

/-- **The tuples of some listings**: for each element of the first, the
tuples of the others behind it. The last one goes fastest, and without
any there is the empty tuple. -/
def tuples : List (Listing α) → Listing (List α)
  | [] => cons [] nil
  | l :: ls => l.bind fun a => (tuples ls).map (a :: ·)

/-- A listing that is not empty, whatever is drawn. -/
def Nonempty : Listing α → Prop
  | nil => False
  | cons _ _ => True
  | draw _ rest => ∀ v, (rest v).Nonempty

/-! ## Going through a listing -/

section

variable (source : Source ω)

/-- **The next element and the rest**, if there is one, and the source
then. -/
def next? : Listing α → ω → Option (α × Listing α) × ω
  | nil, w => (none, w)
  | cons a rest, w => (some (a, rest), w)
  | draw g rest, w => (rest (source g w).1).next? (source g w).2

/-- **All elements**, given the source to draw from. -/
def elements : Listing α → ω → List α
  | nil, _ => []
  | cons a rest, w => a :: rest.elements w
  | draw g rest, w => (rest (source g w).1).elements (source g w).2

end

variable {source : Source ω} {w w' : ω}

theorem Nonempty.exists_next? {l : Listing α} (h : l.Nonempty) (source : Source ω) (w : ω) :
    ∃ a rest w', l.next? source w = (some (a, rest), w') := by
  induction l generalizing w with
  | nil => exact h.elim
  | cons a rest => exact ⟨a, rest, w, rfl⟩
  | draw g rest ih => exact ih _ (h _) _

theorem elements_of_next?_none {l : Listing α} (h : l.next? source w = (none, w')) :
    l.elements source w = [] := by
  induction l generalizing w with
  | nil => rfl
  | cons => cases h
  | draw g rest ih => exact ih _ h

/-- **The next element is the first of all**, and the others are those of
the rest. -/
theorem elements_of_next?_some {l rest : Listing α} {a : α}
    (h : l.next? source w = (some (a, rest), w')) :
    l.elements source w = a :: rest.elements source w' := by
  induction l generalizing w with
  | nil => cases h
  | cons => cases h; rfl
  | draw g rest ih => exact ih _ h

theorem Nonempty.elements_ne_nil {l : Listing α} (h : l.Nonempty) (source : Source ω) (w : ω) :
    l.elements source w ≠ [] := by
  obtain ⟨a, rest, w', hnext⟩ := h.exists_next? source w
  rw [elements_of_next?_some hnext]
  exact List.cons_ne_nil _ _

/-! ## The next element of what is built from listings -/

theorem next?_append_of_none {l m : Listing α} (h : l.next? source w = (none, w')) :
    (l ++ m).next? source w = m.next? source w' := by
  induction l generalizing w with
  | nil => cases h; rfl
  | cons => cases h
  | draw g rest ih => exact ih _ h

theorem next?_append_of_some {l m rest : Listing α} {a : α}
    (h : l.next? source w = (some (a, rest), w')) :
    (l ++ m).next? source w = (some (a, rest ++ m), w') := by
  induction l generalizing w with
  | nil => cases h
  | cons => cases h; rfl
  | draw g rest ih => exact ih _ h

theorem next?_map_of_none {f : α → β} {l : Listing α} (h : l.next? source w = (none, w')) :
    (l.map f).next? source w = (none, w') := by
  induction l generalizing w with
  | nil => cases h; rfl
  | cons => cases h
  | draw g rest ih => exact ih _ h

theorem next?_map_of_some {f : α → β} {l rest : Listing α} {a : α}
    (h : l.next? source w = (some (a, rest), w')) :
    (l.map f).next? source w = (some (f a, rest.map f), w') := by
  induction l generalizing w with
  | nil => cases h
  | cons => cases h; rfl
  | draw g rest ih => exact ih _ h

theorem next?_bind_of_none {f : α → Listing β} {l : Listing α}
    (h : l.next? source w = (none, w')) : (l.bind f).next? source w = (none, w') := by
  induction l generalizing w with
  | nil => cases h; rfl
  | cons => cases h
  | draw g rest ih => exact ih _ h

/-- **A loop goes through the listing for the next element first**, and
then on with the rest. -/
theorem next?_bind_of_some {f : α → Listing β} {l rest : Listing α} {a : α}
    (h : l.next? source w = (some (a, rest), w')) :
    (l.bind f).next? source w = (f a ++ rest.bind f).next? source w' := by
  induction l generalizing w with
  | nil => cases h
  | cons => cases h; rfl
  | draw g rest ih => exact ih _ h

/-! ## Listings that are not empty -/

theorem nonempty_ofList {as : List α} (h : as ≠ []) : (ofList as).Nonempty := by
  cases as with
  | nil => exact h rfl
  | cons => exact trivial

theorem Nonempty.append {l : Listing α} (h : l.Nonempty) (m : Listing α) :
    (l ++ m).Nonempty := by
  induction l with
  | nil => exact h.elim
  | cons => exact trivial
  | draw g rest ih => exact fun v => ih v (h v)

theorem Nonempty.map {l : Listing α} (h : l.Nonempty) (f : α → β) : (l.map f).Nonempty := by
  induction l with
  | nil => exact h.elim
  | cons => exact trivial
  | draw g rest ih => exact fun v => ih v (h v)

theorem Nonempty.bind {f : α → Listing β} {l : Listing α} (h : l.Nonempty)
    (hf : ∀ a, (f a).Nonempty) : (l.bind f).Nonempty := by
  induction l with
  | nil => exact h.elim
  | cons a => exact (hf a).append _
  | draw g rest ih => exact fun v => ih v (h v)

/-- **No tuple is missing** where no listing is empty. -/
theorem nonempty_tuples {ls : List (Listing α)} (h : ∀ l ∈ ls, l.Nonempty) :
    (tuples ls).Nonempty := by
  induction ls with
  | nil => exact trivial
  | cons l ls ih =>
    obtain ⟨hl, hls⟩ := List.forall_mem_cons.mp h
    exact hl.bind fun a => (ih hls).map _

/-! ## Between two tuples -/

/-- **The tuples that come after one**, given what is left of each
listing: first those that differ from it in later places only. -/
def tuplesAfter : List (Listing α) → List α → List (Listing α) → Listing (List α)
  | _ :: ls, a :: as, rest :: rests =>
    (tuplesAfter ls as rests).map (a :: ·) ++ rest.bind fun a => (tuples ls).map (a :: ·)
  | _, _, _ => nil

/-- **The next tuple with a new first element**: it takes the first tuple
of the others. -/
theorem next?_bind_tuples {ls rests : List (Listing α)} {l rest : Listing α} {a : α} {as : List α}
    {w₁ w₂ : ω} (hl : l.next? source w = (some (a, rest), w₁))
    (hls : (tuples ls).next? source w₁ = (some (as, tuplesAfter ls as rests), w₂)) :
    (l.bind fun a => (tuples ls).map (a :: ·)).next? source w
      = (some (a :: as, tuplesAfter (l :: ls) (a :: as) (rest :: rests)), w₂) := by
  rw [next?_bind_of_some hl, next?_append_of_some (next?_map_of_some hls)]
  rfl

end Listing

/-! ## The listings of enumerators -/

/-- The values of a range from an integer on. -/
def Range.valuesFrom (r : Range) (n : Int) : List Value :=
  (Int.range n r.stop.toInt).map fun i => .int (Int32.ofInt i)

/-- **The values of a range**, from its start to the one before its
end. -/
def Range.values (r : Range) : List Value := r.valuesFrom r.start.toInt

mutual

/-- **What an enumerator goes through.** -/
def Enumerator.listing : Enumerator → Listing Value
  | .range r => .ofList r.values
  | .values v => .ofList v.items
  | .product _ parts => (Listing.tuples (enumeratorsListings parts)).map .tuple
  | .once g => .draw g fun v => .cons v .nil

/-- What enumerators go through. -/
def enumeratorsListings : List Enumerator → List (Listing Value)
  | [] => []
  | e :: rest => e.listing :: enumeratorsListings rest

end

/-- The values of a range with one at least begin with it. -/
theorem Range.valuesFrom_of_lt {r : Range} {n : Int} (h : n < r.stop.toInt) :
    r.valuesFrom n = .int (Int32.ofInt n) :: r.valuesFrom (n + 1) := by
  have hlength : (r.stop.toInt - n).toNat = (r.stop.toInt - (n + 1)).toNat + 1 := by omega
  rw [valuesFrom, Int.range, hlength, List.range_succ_eq_map, valuesFrom, Int.range]
  simp only [List.map_cons, List.map_map, Int.ofNat_zero, Int.add_zero]
  refine congrArg _ (List.map_congr_left fun i _ => ?_)
  simp only [Function.comp_apply, Nat.succ_eq_add_one, Int.natCast_add, Int.natCast_one]
  rw [Int.add_assoc, Int.add_comm 1]

theorem Range.valuesFrom_of_le {r : Range} {n : Int} (h : r.stop.toInt ≤ n) :
    r.valuesFrom n = [] := by
  rw [valuesFrom, Int.range, Int.toNat_of_nonpos (by omega)]
  rfl

end Specimen
