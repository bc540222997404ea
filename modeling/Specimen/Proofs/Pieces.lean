import Specimen.Path

/-!
# The pieces of a list that goes on

A list that is cut at separators has pieces that are finished and a last
one that is not: when the list goes on, so does the last piece, and the
others stay as they are (`cut_append`). That is why a stream can be cut
as it comes. No piece has a separator in it, so cutting a piece again
changes nothing (`cut_of_forall`).
-/

namespace Specimen

variable {α : Type} {sep : α → Bool}

/-- The last piece of a list. -/
def lastPiece (sep : α → Bool) (l : List α) : List α := (cut sep l).getLast?.getD []

theorem dropLast_append_lastPiece (sep : α → Bool) (l : List α) :
    (cut sep l).dropLast ++ [lastPiece sep l] = cut sep l := by
  rw [lastPiece, List.getLast?_eq_some_getLast (cut_ne_nil sep l)]
  exact List.dropLast_concat_getLast (cut_ne_nil sep l)

theorem cut_cons_of_cut {a : α} (ha : sep a = false) {l first : List α} {rest : List (List α)}
    (h : cut sep l = first :: rest) : cut sep (a :: l) = (a :: first) :: rest := by
  obtain ⟨rfl, rfl⟩ := List.cons.inj h
  exact cut_cons_of_not_sep ha l

/-- **No piece has a separator in it.** -/
theorem sep_of_mem_cut {l piece : List α} (h : piece ∈ cut sep l) : ∀ a ∈ piece, sep a = false := by
  induction l generalizing piece with
  | nil =>
    rw [List.mem_singleton.mp h]
    nofun
  | cons a l ih =>
    cases ha : sep a with
    | true =>
      rw [cut_cons_of_sep ha] at h
      rcases List.mem_cons.mp h with rfl | h
      · nofun
      · exact ih h
    | false =>
      obtain ⟨first, rest, hl⟩ := List.exists_cons_of_ne_nil (cut_ne_nil sep l)
      rw [cut_cons_of_cut ha hl] at h
      rw [hl] at ih
      rcases List.mem_cons.mp h with rfl | h
      · exact List.forall_mem_cons.mpr ⟨ha, ih List.mem_cons_self⟩
      · exact ih (List.mem_cons_of_mem _ h)

theorem sep_of_mem_lastPiece {l : List α} : ∀ a ∈ lastPiece sep l, sep a = false := by
  unfold lastPiece
  cases hlast : (cut sep l).getLast? with
  | none => nofun
  | some piece => exact sep_of_mem_cut (List.mem_of_getLast? hlast)

/-- **A list without separators is one piece.** -/
theorem cut_of_forall {l : List α} (h : ∀ a ∈ l, sep a = false) : cut sep l = [l] := by
  induction l with
  | nil => rfl
  | cons a l ih =>
    obtain ⟨ha, hl⟩ := List.forall_mem_cons.mp h
    exact cut_cons_of_cut ha (ih hl)

/-- **A separator parts the pieces** in front of it from those behind. -/
theorem cut_append_cons_of_sep {s : α} (hs : sep s = true) (x y : List α) :
    cut sep (x ++ s :: y) = cut sep x ++ cut sep y := by
  induction x with
  | nil => exact cut_cons_of_sep hs y
  | cons a x ih =>
    rw [List.cons_append]
    cases ha : sep a with
    | true =>
      rw [cut_cons_of_sep ha, cut_cons_of_sep ha, ih]
      rfl
    | false =>
      obtain ⟨first, rest, hx⟩ := List.exists_cons_of_ne_nil (cut_ne_nil sep x)
      rw [hx, List.cons_append] at ih
      rw [cut_cons_of_cut ha hx, cut_cons_of_cut ha ih]
      rfl

/-- **When a list goes on, so does its last piece**, and the others stay.
So a list that comes in chunks can be cut chunk by chunk, if the last
piece is kept for the next one. -/
theorem cut_append (x y : List α) :
    cut sep (x ++ y) = (cut sep x).dropLast ++ cut sep (lastPiece sep x ++ y) := by
  induction x with
  | nil => rfl
  | cons a x ih =>
    obtain ⟨first, rest, hx⟩ := List.exists_cons_of_ne_nil (cut_ne_nil sep x)
    rw [lastPiece, hx] at ih
    rw [List.cons_append, lastPiece]
    cases ha : sep a with
    | true =>
      rw [cut_cons_of_sep ha, cut_cons_of_sep ha, ih, hx]
      rfl
    | false =>
      rw [cut_cons_of_cut ha hx]
      cases rest with
      | nil =>
        -- the list is one piece so far, which the element is in front of
        obtain ⟨next, others, hnext⟩ := List.exists_cons_of_ne_nil (cut_ne_nil sep (first ++ y))
        have hall : cut sep (x ++ y) = next :: others := ih.trans hnext
        exact (cut_cons_of_cut ha hall).trans (cut_cons_of_cut ha hnext).symm
      | cons next others => exact cut_cons_of_cut ha ih

/-- The last piece of a list that goes on is that of its last piece. -/
theorem lastPiece_append (x y : List α) :
    lastPiece sep (x ++ y) = lastPiece sep (lastPiece sep x ++ y) := by
  have hlast := List.getLast?_eq_some_getLast (cut_ne_nil sep (lastPiece sep x ++ y))
  rw [lastPiece, cut_append, List.getLast?_append, hlast, Option.some_or, ← hlast]
  rfl

theorem lastPiece_append_of_forall (x : List α) {y : List α} (h : ∀ a ∈ y, sep a = false) :
    lastPiece sep (x ++ y) = lastPiece sep x ++ y := by
  have hlast : cut sep (lastPiece sep x ++ y) = [lastPiece sep x ++ y] :=
    cut_of_forall (List.forall_mem_append.mpr ⟨sep_of_mem_lastPiece, h⟩)
  rw [lastPiece_append, lastPiece, hlast]
  rfl

end Specimen
