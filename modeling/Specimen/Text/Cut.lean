/-!
# Cutting at separators

A list with some elements marked as separators falls into pieces, one
more than there are separators. Paths are cut at slashes, report
streams at the byte that ends a line, and texts into `lines`.
-/

namespace Specimen

variable {α : Type}

/-- The piece before the first separator, and the pieces behind it. -/
def cutFirst (sep : α → Bool) (l : List α) : List α × List (List α) :=
  l.foldr (fun a cut => if sep a then ([], cut.1 :: cut.2) else (a :: cut.1, cut.2)) ([], [])

/-- **The pieces of a list** between its separators. -/
def cut (sep : α → Bool) (l : List α) : List (List α) := (cutFirst sep l).1 :: (cutFirst sep l).2

@[simp] theorem cut_nil (sep : α → Bool) : cut sep ([] : List α) = [[]] := rfl

theorem cut_cons_of_sep {sep : α → Bool} {a : α} (h : sep a = true) (l : List α) :
    cut sep (a :: l) = [] :: cut sep l := by
  simp [cut, cutFirst, h]

theorem cut_cons_of_not_sep {sep : α → Bool} {a : α} (h : sep a = false) (l : List α) :
    cut sep (a :: l) = (a :: (cutFirst sep l).1) :: (cutFirst sep l).2 := by
  simp [cut, cutFirst, h]

theorem cut_ne_nil (sep : α → Bool) (l : List α) : cut sep l ≠ [] := by simp [cut]

/-- A line without the carriage return that belongs to its end. -/
def dropReturn (line : List Char) : List Char :=
  if line.getLast? == some '\r' then line.dropLast else line

/-- **The lines of a text.** A carriage return before a line's end
belongs to the end, and no line begins behind the last line's end. -/
def lines (text : String) : List String :=
  let pieces := cut (· == '\n') text.toList
  let last := pieces.getLast?.getD []
  (pieces.dropLast.map dropReturn ++ (if last.isEmpty then [] else [last])).map String.ofList

example : lines "a\r\n\nb\r" = ["a", "", "b\r"] := by decide +kernel

end Specimen
