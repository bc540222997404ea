import Mathlib.Data.List.Induction
import Mathlib.Data.List.Lex
import Mathlib.Data.Prod.Lex
import Mathlib.Data.String.Basic
import Specimen.Program.Source

/-!
# The order of paths

Paths are compared component by component, and components by kind and
then by name. This is the lexicographic order of lists of pairs
(`Path.before_iff`), so it is a strict order on paths, as far as they
are told apart by their components. A list that paths are put into one
by one is therefore strictly increasing and has each path once
(`Program.pairwise_insertPath`).
-/

namespace Specimen

namespace Path

/-! ## Places -/

/-- The name in a component. -/
def Component.name : Component → String
  | normal name => name
  | _ => ""

/-- **The place of a component** in the order: its kind, then its
name. -/
def Component.place (c : Component) : ℕ ×ₗ String := toLex (c.rank, c.name)

theorem Component.place_injective : Component.place.Injective := by
  intro a b h
  obtain ⟨hrank, hname⟩ := Prod.mk.inj (toLex.injective h)
  cases a <;> cases b <;> simp_all [rank, name]

theorem Component.lt_iff {a b : Component} : a.lt b = true ↔ a.place < b.place := by
  unfold place
  rw [Prod.Lex.toLex_lt_toLex]
  cases a <;> cases b <;> simp [lt, rank, name]

/-- **The place of a path**: those of its components. -/
def place (path : String) : List (ℕ ×ₗ String) := (components path).map Component.place

theorem same_iff {p q : String} : same p q = true ↔ place p = place q :=
  beq_iff_eq.trans (List.map_injective_iff.mpr Component.place_injective).eq_iff.symm

/-- Lists of components are compared by their places. -/
theorem componentsLt_iff {as bs : List Component} :
    componentsLt as bs = true ↔ as.map Component.place < bs.map Component.place := by
  induction as generalizing bs with
  | nil => cases bs <;> simp [componentsLt]
  | cons a as ih =>
    cases bs with
    | nil => simp [componentsLt]
    | cons b bs =>
      rw [componentsLt, Bool.or_eq_true, Bool.and_eq_true, beq_iff_eq, ih, Component.lt_iff,
        List.map_cons, List.map_cons, List.cons_lt_cons_iff, Component.place_injective.eq_iff]

/-- **A path comes before another** in the order of components. -/
def Before (p q : String) : Prop := componentsLt (components p) (components q) = true

theorem before_iff {p q : String} : Before p q ↔ place p < place q := componentsLt_iff

/-- A path does not come before itself, however it is spelled. -/
theorem Before.same_eq_false {p q : String} (h : Before p q) : same p q = false := by
  rw [Bool.eq_false_iff, Ne, same_iff]
  exact (before_iff.mp h).ne

end Path

namespace Program

/-! ## Putting paths into a list -/

/-- What is in a list that a path was put into. -/
theorem mem_of_mem_insertPath {p q : String} {paths : List String}
    (h : q ∈ insertPath p paths) : q = p ∨ q ∈ paths := by
  induction paths with
  | nil => exact .inl (List.mem_singleton.mp h)
  | cons first rest ih =>
    unfold insertPath at h
    split at h
    · exact .inr h
    · split at h
      · exact List.mem_cons.mp h
      · rcases List.mem_cons.mp h with rfl | h
        · exact .inr List.mem_cons_self
        · exact (ih h).imp_right (List.mem_cons_of_mem _)

/-- What was in the list stays there. -/
theorem subset_insertPath (p : String) (paths : List String) : paths ⊆ insertPath p paths := by
  induction paths with
  | nil => exact List.nil_subset _
  | cons first rest ih =>
    unfold insertPath
    split
    · exact List.Subset.refl _
    · split
      · exact List.subset_cons_self _ _
      · exact List.cons_subset_cons _ ih

/-- The path that was put into a list is there, in some spelling. -/
theorem exists_same_mem_insertPath (p : String) (paths : List String) :
    ∃ q ∈ insertPath p paths, Path.same p q = true := by
  induction paths with
  | nil => exact ⟨p, List.mem_singleton_self p, beq_self_eq_true _⟩
  | cons first rest ih =>
    unfold insertPath
    split
    next hsame => exact ⟨first, List.mem_cons_self, hsame⟩
    next =>
      split
      · exact ⟨p, List.mem_cons_self, beq_self_eq_true _⟩
      · obtain ⟨q, hq, hsame⟩ := ih
        exact ⟨q, List.mem_cons_of_mem _ hq, hsame⟩

/-- **A list of paths stays strictly increasing** when a path is put into
it. -/
theorem pairwise_insertPath {paths : List String} (h : paths.Pairwise Path.Before)
    (p : String) : (insertPath p paths).Pairwise Path.Before := by
  induction paths with
  | nil => exact List.pairwise_singleton _ _
  | cons first rest ih =>
    obtain ⟨hfirst, hrest⟩ := List.pairwise_cons.mp h
    unfold insertPath
    split
    next => exact h
    next hne =>
      split
      next hlt =>
        refine List.pairwise_cons.mpr ⟨fun q hq => ?_, h⟩
        rcases List.mem_cons.mp hq with rfl | hq
        · exact hlt
        · exact Path.before_iff.mpr
            ((Path.before_iff.mp hlt).trans (Path.before_iff.mp (hfirst q hq)))
      next hge =>
        -- the new path stays behind the first, whatever comes after it
        refine List.pairwise_cons.mpr ⟨fun q hq => ?_, ih hrest⟩
        rcases mem_of_mem_insertPath hq with rfl | hq
        · rw [Path.same_iff] at hne
          rw [Path.componentsLt_iff, not_lt] at hge
          exact Path.before_iff.mpr (lt_of_le_of_ne hge (Ne.symm hne))
        · exact hfirst q hq

/-- **A list that paths are put into** is strictly increasing, and has
each of them once, in one of its spellings: a path that is there in some
spelling is not put in again. -/
theorem foldl_insertPath_spec (paths : List String) :
    (paths.foldl (fun paths path => insertPath path paths) []).Pairwise Path.Before ∧
      (∀ q ∈ paths.foldl (fun paths path => insertPath path paths) [], q ∈ paths) ∧
      ∀ p ∈ paths, ∃ q ∈ paths.foldl (fun paths path => insertPath path paths) [],
        Path.same p q = true := by
  induction paths using List.reverseRecOn with
  | nil => exact ⟨.nil, nofun, nofun⟩
  | append_singleton paths p ih =>
    obtain ⟨hpairwise, hmem, hsame⟩ := ih
    rw [List.foldl_append]
    refine ⟨pairwise_insertPath hpairwise p, fun q hq => ?_, fun r hr => ?_⟩
    · rcases mem_of_mem_insertPath hq with rfl | hq
      · exact List.mem_append_right _ (List.mem_singleton_self _)
      · exact List.mem_append_left _ (hmem q hq)
    · rcases List.mem_append.mp hr with hr | hr
      · obtain ⟨q, hq, hrq⟩ := hsame r hr
        exact ⟨q, subset_insertPath _ _ hq, hrq⟩
      · rw [List.mem_singleton.mp hr]
        exact exists_same_mem_insertPath p _

end Program

end Specimen
