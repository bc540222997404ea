import Mathlib.Data.List.Nodup
import Mathlib.Data.List.Perm.Subperm
import Mathlib.Data.List.TakeWhile
import Specimen.Text.Identifier
import Std.Data.String.ToNat

/-!
# Names and what follows them

Identifiers are made of a few characters only, and every sign that
separates names in a text is none of them. So a name can be told from
what follows it, whatever that is (`append_inj_of_identifier`). A number
behind a name leaves it an identifier (`isIdentifier_append_toString`),
and a name that is given by position tells its position
(`autoName_injective`). Names that differ by a number never run out
(`exists_not_mem_of_injective`).
-/

namespace Specimen

/-- A character that starts an identifier may go on with it as well. -/
theorem continuesIdentifier_of_starts {c : Char} (h : startsIdentifier c = true) :
    continuesIdentifier c = true := by
  unfold startsIdentifier at h
  unfold continuesIdentifier Char.isAlphanum
  rcases Bool.or_eq_true_iff.mp h with h | h
  · rw [h]
    rfl
  · rw [h, Bool.or_true]

/-- **The characters of an identifier**, at least one. -/
theorem identifier_chars {name : String} (h : isIdentifier name = true) :
    name.toList ≠ [] ∧ ∀ c ∈ name.toList, continuesIdentifier c = true := by
  unfold isIdentifier at h
  split at h
  next => cases h
  next c rest hname =>
    obtain ⟨hc, hrest⟩ := Bool.and_eq_true_iff.mp h
    rw [hname]
    refine ⟨List.cons_ne_nil c rest, fun d hd => ?_⟩
    rcases List.mem_cons.mp hd with rfl | hd
    · exact continuesIdentifier_of_starts hc
    · exact List.all_eq_true.mp hrest d hd

/-- A text ends a name when it does not begin with a character of
identifiers. -/
def EndsName (cs : List Char) : Prop := ∀ c ∈ cs.head?, continuesIdentifier c = false

/-- What ends a name does not begin with one. -/
theorem EndsName.ne_append {cs ds : List Char} (hcs : EndsName cs) {name : String}
    (h : isIdentifier name = true) : cs ≠ name.toList ++ ds := by
  rintro rfl
  obtain ⟨hne, hchars⟩ := identifier_chars h
  obtain ⟨c, rest, hname⟩ := List.exists_cons_of_ne_nil hne
  have hc : continuesIdentifier c = true := hchars c (hname ▸ List.mem_cons_self)
  have hhead : c ∈ (name.toList ++ ds).head? := by
    rw [hname]
    rfl
  exact Bool.false_ne_true ((hcs c hhead).symm.trans hc)

/-- **A word is told from what follows it**, if what it is made of does
not go on there. So a text is taken apart from the left, one word at a
time. -/
theorem append_inj_of_forall {p : Char → Bool} {xs ys cs ds : List Char}
    (hxs : ∀ c ∈ xs, p c = true) (hys : ∀ c ∈ ys, p c = true)
    (hcs : ∀ c ∈ cs.head?, p c = false) (hds : ∀ c ∈ ds.head?, p c = false)
    (h : xs ++ cs = ys ++ ds) : xs = ys ∧ cs = ds := by
  have htake : ∀ {xs cs : List Char}, (∀ c ∈ xs, p c = true) → (∀ c ∈ cs.head?, p c = false) →
      (xs ++ cs).takeWhile p = xs := by
    intro xs cs hxs hcs
    rw [List.takeWhile_append_of_pos hxs]
    cases cs with
    | nil => rw [List.takeWhile_nil, List.append_nil]
    | cons c cs =>
      rw [List.takeWhile_cons_of_neg, List.append_nil]
      rw [hcs c rfl]
      exact Bool.false_ne_true
  have hxy : xs = ys := by
    rw [← htake hxs hcs, h, htake hys hds]
  subst hxy
  exact ⟨rfl, List.append_cancel_left h⟩

/-- **A name is told from what follows it.** -/
theorem append_inj_of_identifier {xs ys cs ds : List Char}
    (hxs : ∀ c ∈ xs, continuesIdentifier c = true)
    (hys : ∀ c ∈ ys, continuesIdentifier c = true) (hcs : EndsName cs) (hds : EndsName ds)
    (h : xs ++ cs = ys ++ ds) : xs = ys ∧ cs = ds :=
  append_inj_of_forall hxs hys hcs hds h

/-! ## Numbers behind names -/

theorem isDigit_of_mem_toString {i : Nat} {c : Char} (hc : c ∈ (toString i).toList) :
    c.isDigit = true := by
  rw [Nat.toString_eq_repr, Nat.toList_repr] at hc
  exact Nat.isDigit_of_mem_toDigits (by decide) (by decide) hc

/-- An identifier stays one when characters of identifiers follow it. -/
theorem isIdentifier_append {name rest : String} (h : isIdentifier name = true)
    (hrest : ∀ c ∈ rest.toList, continuesIdentifier c = true) :
    isIdentifier (name ++ rest) = true := by
  unfold isIdentifier at h
  split at h
  next => cases h
  next c tail hname =>
    have hlist : (name ++ rest).toList = c :: (tail ++ rest.toList) := by
      rw [String.toList_append, hname]
      rfl
    obtain ⟨hc, htail⟩ := Bool.and_eq_true_iff.mp h
    rw [isIdentifier_of_toList hlist, List.all_append, hc, htail]
    exact List.all_eq_true.mpr hrest

theorem isIdentifier_append_toString {name : String} (h : isIdentifier name = true) (i : Nat) :
    isIdentifier (name ++ toString i) = true := by
  refine isIdentifier_append h fun c hc => ?_
  unfold continuesIdentifier Char.isAlphanum
  rw [isDigit_of_mem_toString hc, Bool.or_true, Bool.true_or]

/-! ## Names given by position -/

/-- **A candidate is free.** Among more candidates than there are
elements, one is no element. This ends every search for a name, whatever
names there are. -/
theorem exists_not_mem_of_injective {α : Type} {f : Nat → α} (hf : f.Injective) (l : List α)
    (start : Nat) : ∃ i, start ≤ i ∧ i ≤ start + l.length ∧ f i ∉ l := by
  by_contra hall
  have hsubset : (List.range' start (l.length + 1)).map f ⊆ l := by
    intro a ha
    obtain ⟨i, hi, rfl⟩ := List.mem_map.mp ha
    obtain ⟨hge, hlt⟩ := List.mem_range'_1.mp hi
    by_contra hfree
    exact hall ⟨i, hge, Nat.le_of_lt_succ hlt, hfree⟩
  have hnodup : ((List.range' start (l.length + 1)).map f).Nodup :=
    List.Nodup.map hf List.nodup_range'
  have hlength := (List.subperm_of_subset hnodup hsubset).length_le
  rw [List.length_map, List.length_range'] at hlength
  exact Nat.not_succ_le_self _ hlength

theorem autoName_injective {i j : Nat} (h : autoName i = autoName j) : i = j := by
  unfold autoName at h
  exact Nat.repr_injective (String.append_right_inj "_v" |>.mp h)

/-- The name of the next position is none of those before. -/
theorem autoName_not_mem_map_range (n : Nat) : autoName n ∉ (List.range n).map autoName := by
  intro hmem
  obtain ⟨i, hi, hname⟩ := List.mem_map.mp hmem
  rw [autoName_injective hname] at hi
  exact Nat.lt_irrefl n (List.mem_range.mp hi)

theorem isIdentifier_autoName (i : Nat) : isIdentifier (autoName i) = true :=
  isIdentifier_append_toString (by decide) i

end Specimen
