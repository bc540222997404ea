/-!
# Blank characters and words

The **blank** characters are those with the Unicode property
`White_Space`. A text is cut at them into its `words`, the maximal runs
of characters that are not blank; report lines and lists of compiler
flags are read in this way.
-/

namespace Specimen

/-- The ranges of code points with the Unicode property `White_Space`. -/
def blankRanges : List (Nat × Nat) :=
  [(0x9, 0xd), (0x20, 0x20), (0x85, 0x85), (0xa0, 0xa0), (0x1680, 0x1680), (0x2000, 0x200a),
   (0x2028, 0x2029), (0x202f, 0x202f), (0x205f, 0x205f), (0x3000, 0x3000)]

/-- Whether a character is blank. -/
def isBlank (c : Char) : Bool :=
  blankRanges.any fun r => r.1 ≤ c.toNat && c.toNat ≤ r.2

/-- Twenty-five characters are blank. -/
example : (blankRanges.map fun r => r.2 - r.1 + 1).sum = 25 := rfl

/-- A cut of a text, read from its end: the word that is open at the
front, and the words after it. -/
structure WordCut where
  /-- The word at the front, possibly empty. -/
  front : List Char
  /-- The words behind it, none of them empty. -/
  rest : List (List Char)

namespace WordCut

/-- Ends the word at the front. -/
def close (cut : WordCut) : List (List Char) :=
  if cut.front.isEmpty then cut.rest else cut.front :: cut.rest

/-- Puts one more character before a cut text. -/
def cons (c : Char) (cut : WordCut) : WordCut :=
  if isBlank c then ⟨[], cut.close⟩ else ⟨c :: cut.front, cut.rest⟩

end WordCut

/-- **The words of a text**: its maximal runs of characters that are not
blank, in order. -/
def words (text : List Char) : List (List Char) :=
  (text.foldr WordCut.cons ⟨[], []⟩).close

@[simp] theorem words_nil : words [] = [] := rfl

theorem words_cons_of_isBlank {c : Char} (h : isBlank c = true) (text : List Char) :
    words (c :: text) = words text := by
  simp [words, WordCut.cons, WordCut.close, h]

example : words "  ab \u2028 c\t".toList = ["ab".toList, "c".toList] := by decide

end Specimen
