import Mathlib.Data.List.Basic
import Specimen.Report.Message

/-!
# The words of a report line

A report line is read word by word, and what is between the words says
nothing: any blanks will do, as many as there are, and before the first
word and behind the last there may be more. What matters is that no word
is lost and none run together. All of it comes from a single equation, that
a blank ends a word whatever stands on either side (`words_append_cons`).
With it the words of a text are those it was put together from
(`words_spaced`), and conversely a text without its blanks is its words in
a row (`flatten_words`).

A message is written as a line again with single spaces. Such a line was
put together from words too, so reading it gives back the message
(`Report.Message.ofLine?_line`).
-/

namespace Specimen

/-- **A word**: at least one character, and none of them blank. -/
structure IsWord (w : List Char) : Prop where
  /-- It has a character. -/
  ne_nil : w ≠ []
  /-- No character is blank. -/
  not_blank : ∀ c ∈ w, isBlank c = false

instance (w : List Char) : Decidable (IsWord w) :=
  decidable_of_iff ((!w.isEmpty && w.all fun c => !isBlank c) = true) <| by
    rw [Bool.and_eq_true, Bool.not_eq_true', List.isEmpty_eq_false_iff, List.all_eq_true]
    simp only [Bool.not_eq_true']
    exact ⟨fun h => ⟨h.1, h.2⟩, fun h => ⟨h.ne_nil, h.not_blank⟩⟩

/-- **A separator**: at least one character, and all of them blank. -/
structure IsSeparator (s : List Char) : Prop where
  /-- It has a character. -/
  ne_nil : s ≠ []
  /-- All characters are blank. -/
  blank : ∀ c ∈ s, isBlank c = true

instance (s : List Char) : Decidable (IsSeparator s) :=
  decidable_of_iff ((!s.isEmpty && s.all isBlank) = true) <| by
    rw [Bool.and_eq_true, Bool.not_eq_true', List.isEmpty_eq_false_iff, List.all_eq_true]
    exact ⟨fun h => ⟨h.1, h.2⟩, fun h => ⟨h.ne_nil, h.blank⟩⟩

/-- **A text put together from words**: the first, and more of them with
what stands before each. -/
def spaced (first : List Char) (more : List (List Char × List Char)) : List Char :=
  first ++ more.flatMap fun m => m.1 ++ m.2

/-! ## Cutting a text into words -/

theorem WordCut.close_append (cut : WordCut) (ws : List (List Char)) :
    (⟨cut.front, cut.rest ++ ws⟩ : WordCut).close = cut.close ++ ws := by
  unfold close
  split <;> rfl

/-- A cut before words that are finished. -/
theorem foldr_cons_close (x : List Char) (ws : List (List Char)) :
    x.foldr WordCut.cons ⟨[], ws⟩
      = ⟨(x.foldr WordCut.cons ⟨[], []⟩).front, (x.foldr WordCut.cons ⟨[], []⟩).rest ++ ws⟩ := by
  induction x with
  | nil => rfl
  | cons c x ih =>
    rw [List.foldr_cons, List.foldr_cons, ih, WordCut.cons, WordCut.cons, WordCut.close_append]
    split <;> rfl

/-- **A blank ends a word**, whatever stands before it and behind it. -/
theorem words_append_cons {c : Char} (hc : isBlank c = true) (x y : List Char) :
    words (x ++ c :: y) = words x ++ words y := by
  have hcut : (c :: y).foldr WordCut.cons ⟨[], []⟩ = ⟨[], words y⟩ := by
    rw [List.foldr_cons, WordCut.cons, if_pos hc]
    rfl
  rw [words, List.foldr_append, hcut, foldr_cons_close, WordCut.close_append, ← words]

theorem words_eq_nil_of_blank {x : List Char} (h : ∀ c ∈ x, isBlank c = true) : words x = [] := by
  induction x with
  | nil => rfl
  | cons c x ih =>
    rw [List.forall_mem_cons] at h
    rw [words_cons_of_isBlank h.1, ih h.2]

theorem words_blank_append {lead : List Char} (h : ∀ c ∈ lead, isBlank c = true) (y : List Char) :
    words (lead ++ y) = words y := by
  induction lead with
  | nil => rfl
  | cons c lead ih =>
    rw [List.forall_mem_cons] at h
    rw [List.cons_append, words_cons_of_isBlank h.1, ih h.2]

/-- **A separator ends a word.** -/
theorem words_append_separator {s : List Char} (hs : IsSeparator s) (x y : List Char) :
    words (x ++ (s ++ y)) = words x ++ words y := by
  obtain ⟨c, rest, rfl⟩ := List.exists_cons_of_ne_nil hs.ne_nil
  obtain ⟨hc, hrest⟩ := List.forall_mem_cons.mp hs.blank
  rw [List.cons_append, words_append_cons hc, words_blank_append hrest]

theorem words_append_blank {trail : List Char} (h : ∀ c ∈ trail, isBlank c = true)
    (x : List Char) : words (x ++ trail) = words x := by
  by_cases hempty : trail = []
  · rw [hempty, List.append_nil]
  · rw [← List.append_nil trail, words_append_separator ⟨hempty, h⟩, words_nil, List.append_nil]

/-- **A word is its only word.** -/
theorem IsWord.words_eq {w : List Char} (hw : IsWord w) : words w = [w] := by
  have hcut : ∀ x : List Char, (∀ c ∈ x, isBlank c = false) →
      x.foldr WordCut.cons ⟨[], []⟩ = ⟨x, []⟩ := by
    intro x hx
    induction x with
    | nil => rfl
    | cons c x ih =>
      rw [List.forall_mem_cons] at hx
      rw [List.foldr_cons, ih hx.2, WordCut.cons, if_neg]
      rw [hx.1]
      exact Bool.false_ne_true
  obtain ⟨c, rest, rfl⟩ := List.exists_cons_of_ne_nil hw.ne_nil
  rw [words, hcut _ hw.not_blank]
  rfl

/-- **The words of a text are those it was put together from.** -/
theorem words_spaced {first : List Char} (hfirst : IsWord first)
    {more : List (List Char × List Char)} (hmore : ∀ m ∈ more, IsSeparator m.1 ∧ IsWord m.2) :
    words (spaced first more) = first :: more.map Prod.snd := by
  induction more generalizing first with
  | nil =>
    rw [spaced, List.flatMap_nil, List.append_nil]
    exact hfirst.words_eq
  | cons m more ih =>
    obtain ⟨⟨hs, hw⟩, hmore⟩ := List.forall_mem_cons.mp hmore
    rw [spaced, List.flatMap_cons, List.append_assoc, words_append_separator hs, hfirst.words_eq,
      ← spaced, ih hw hmore]
    rfl

/-! ## What the words of a text are -/

/-- Every word of a text is one, and the word that is open has no blank. -/
theorem cut_words (x : List Char) :
    (∀ c ∈ (x.foldr WordCut.cons ⟨[], []⟩).front, isBlank c = false) ∧
      ∀ w ∈ (x.foldr WordCut.cons ⟨[], []⟩).rest, IsWord w := by
  induction x with
  | nil => exact ⟨List.forall_mem_nil _, List.forall_mem_nil _⟩
  | cons c x ih =>
    obtain ⟨hfront, hrest⟩ := ih
    rw [List.foldr_cons, WordCut.cons]
    split
    next =>
      refine ⟨List.forall_mem_nil _, fun w hw => ?_⟩
      unfold WordCut.close at hw
      split at hw
      next => exact hrest w hw
      next hne =>
        rcases List.mem_cons.mp hw with rfl | hw
        · exact ⟨fun h => hne (List.isEmpty_iff.mpr h), hfront⟩
        · exact hrest w hw
    next hc =>
      rw [Bool.not_eq_true] at hc
      exact ⟨List.forall_mem_cons.mpr ⟨hc, hfront⟩, hrest⟩

/-- **The words of a text are words.** -/
theorem isWord_of_mem_words {x w : List Char} (h : w ∈ words x) : IsWord w := by
  have hspace : isBlank ' ' = true := by decide
  -- a blank before the text closes the word that is open
  rw [← words_cons_of_isBlank hspace, words, List.foldr_cons, WordCut.cons, if_pos hspace] at h
  have hcut := (cut_words (' ' :: x)).2
  rw [List.foldr_cons, WordCut.cons, if_pos hspace] at hcut
  exact hcut w h

/-- **Only blanks are lost.** The characters of the words, one word after
another, are those of the text that are no blanks. -/
theorem flatten_words (x : List Char) : (words x).flatten = x.filter fun c => !isBlank c := by
  have hclose : ∀ cut : WordCut, cut.close.flatten = cut.front ++ cut.rest.flatten := by
    intro cut
    unfold WordCut.close
    split
    next h => rw [List.isEmpty_iff.mp h, List.nil_append]
    next => rw [List.flatten_cons]
  rw [words, hclose]
  induction x with
  | nil => rfl
  | cons c x ih =>
    rw [List.foldr_cons, WordCut.cons]
    split
    next hc =>
      rw [List.filter_cons_of_neg (by rw [hc]; exact Bool.false_ne_true), ← ih, hclose]
      rfl
    next hc =>
      rw [List.filter_cons_of_pos (by rw [Bool.not_eq_true] at hc; rw [hc]; rfl), ← ih]
      rfl

/-- A text has no words exactly when it is blank. -/
theorem words_eq_nil_iff {x : List Char} : words x = [] ↔ ∀ c ∈ x, isBlank c = true := by
  refine ⟨fun h => ?_, words_eq_nil_of_blank⟩
  have hfilter := flatten_words x
  rw [h] at hfilter
  intro c hc
  have hkept := List.filter_eq_nil_iff.mp hfilter.symm c hc
  rwa [Bool.not_eq_true', Bool.not_eq_false] at hkept

/-! ## Messages -/

namespace Report.Message

theorem map_toList_map_ofList (ws : List (List Char)) :
    (ws.map String.ofList).map String.toList = ws := by
  rw [List.map_map]
  exact (List.map_congr_left fun w _ => String.toList_ofList).trans (List.map_id ws)

/-- **The message of a line** has its first word for a tag and the others
for arguments. -/
theorem ofLine?_of_words {line tag : List Char} {args : List (List Char)}
    (h : words line = tag :: args) :
    ofLine? line
      = some ⟨Event.ofTag (String.ofList tag), String.ofList tag, args.map String.ofList⟩ := by
  rw [ofLine?, h]

/-- A line of some message has words. -/
theorem words_of_ofLine? {line : List Char} {m : Message} (h : ofLine? line = some m) :
    words line = (m.tag :: m.args).map String.toList ∧ m.event = Event.ofTag m.tag := by
  cases hwords : words line with
  | nil =>
    rw [ofLine?, hwords] at h
    cases h
  | cons tag args =>
    rw [ofLine?_of_words hwords] at h
    cases h
    refine ⟨?_, rfl⟩
    rw [List.map_cons, String.toList_ofList, map_toList_map_ofList]

theorem isSeparator_space : IsSeparator " ".toList := by decide

/-- The words of arguments with single spaces between them. -/
theorem words_intercalate {args : List String} (h : ∀ a ∈ args, IsWord a.toList) :
    words (" ".intercalate args).toList = args.map String.toList := by
  induction args with
  | nil => rfl
  | cons a args ih =>
    obtain ⟨ha, hargs⟩ := List.forall_mem_cons.mp h
    cases args with
    | nil =>
      rw [String.intercalate_singleton]
      exact ha.words_eq
    | cons b args =>
      rw [String.intercalate_cons_cons, String.toList_append, String.toList_append,
        List.append_assoc, words_append_separator isSeparator_space, ha.words_eq, ih hargs]
      rfl

/-- The tag and the arguments of a message are words. -/
theorem isWord_of_ofLine? {line : List Char} {m : Message} (h : ofLine? line = some m) {t : String}
    (ht : t ∈ m.tag :: m.args) : IsWord t.toList := by
  obtain ⟨hwords, -⟩ := words_of_ofLine? h
  have hmem : t.toList ∈ words line := hwords ▸ List.mem_map_of_mem ht
  exact isWord_of_mem_words hmem

/-- **A message that is written as a line is read as it was.** -/
theorem ofLine?_line {line : List Char} {m : Message} (h : ofLine? line = some m) :
    ofLine? m.line.toList = some m := by
  obtain ⟨hwords, -⟩ := words_of_ofLine? h
  have htag : IsWord m.tag.toList := isWord_of_ofLine? h List.mem_cons_self
  have hargs : ∀ a ∈ m.args, IsWord a.toList := fun a ha =>
    isWord_of_ofLine? h (List.mem_cons_of_mem _ ha)
  have hline : words m.line.toList = (m.tag :: m.args).map String.toList := by
    rw [Message.line, String.toList_append, String.toList_append, List.append_assoc,
      words_append_separator isSeparator_space, htag.words_eq, words_intercalate hargs]
    rfl
  rw [← h, ofLine?, ofLine?, hline, hwords]

/-- **What is read from a report line.** A line has no message exactly when
it is blank. A message has a tag and arguments that are words, all that is
not blank of its line in a row; written with single spaces it is read as it
was. And whatever words a line was put together from, with any blanks
between them and around, the first is the tag and the others are the
arguments. -/
theorem ofLine_exact :
    (∀ line, ofLine? line = none ↔ ∀ c ∈ line, isBlank c = true) ∧
    (∀ line m, ofLine? line = some m →
      m.event = Event.ofTag m.tag ∧ (∀ t ∈ m.tag :: m.args, IsWord t.toList) ∧
      (String.join (m.tag :: m.args)).toList = line.filter (fun c => !isBlank c) ∧
      ofLine? m.line.toList = some m) ∧
    ∀ lead first more trail, (∀ c ∈ lead, isBlank c = true) → (∀ c ∈ trail, isBlank c = true) →
      IsWord first → (∀ m ∈ more, IsSeparator m.1 ∧ IsWord m.2) →
      ofLine? (lead ++ spaced first more ++ trail)
        = some ⟨Event.ofTag (String.ofList first), String.ofList first,
            more.map fun m => String.ofList m.2⟩ := by
  refine ⟨fun line => ?_, fun line m h => ?_,
    fun lead first more trail hlead htrail hfirst hmore => ?_⟩
  · rw [← words_eq_nil_iff]
    cases hwords : words line with
    | nil =>
      rw [ofLine?, hwords]
      exact ⟨fun _ => rfl, fun _ => rfl⟩
    | cons tag args =>
      rw [ofLine?_of_words hwords]
      exact ⟨nofun, nofun⟩
  · obtain ⟨hwords, hevent⟩ := words_of_ofLine? h
    refine ⟨hevent, fun t ht => isWord_of_ofLine? h ht, ?_, ofLine?_line h⟩
    rw [String.toList_join, List.flatMap_def, ← hwords, flatten_words]
  · have hwords : words (lead ++ spaced first more ++ trail) = first :: more.map Prod.snd := by
      rw [words_append_blank htrail, words_blank_append hlead, words_spaced hfirst hmore]
    rw [ofLine?_of_words hwords, List.map_map]
    rfl

/-- A line with a line separator before it, a next line and a carriage
return between the first words, and a blank behind it. -/
theorem ofLine_exact_mixed :
    let line := "\u2028ERROR\u0085\r1\t2 ".toList
    let more := [("\u0085\r".toList, "1".toList), ("\t".toList, "2".toList)]
    let m : Message := ⟨.error, "ERROR", ["1", "2"]⟩
    (∀ c ∈ "\u2028".toList, isBlank c = true) ∧ (∀ c ∈ " ".toList, isBlank c = true) ∧
    IsWord "ERROR".toList ∧ (∀ w ∈ more, IsSeparator w.1 ∧ IsWord w.2) ∧
    ofLine? line = some m ∧
    (String.join (m.tag :: m.args)).toList = line.filter (fun c => !isBlank c) ∧
    ofLine? "ERROR 1 2".toList = some m := by
  intro line more m
  have hlead : ∀ c ∈ "\u2028".toList, isBlank c = true := List.all_eq_true.mp (by decide)
  have htrail : ∀ c ∈ " ".toList, isBlank c = true := List.all_eq_true.mp (by decide)
  have hfirst : IsWord "ERROR".toList := by decide
  have hmore : ∀ w ∈ more, IsSeparator w.1 ∧ IsWord w.2 :=
    List.forall_mem_cons.mpr ⟨by decide, List.forall_mem_singleton.mpr (by decide)⟩
  obtain ⟨-, hsound, hspaced⟩ := ofLine_exact
  have hline : ofLine? line = some m :=
    hspaced "\u2028".toList "ERROR".toList more " ".toList hlead htrail hfirst hmore
  obtain ⟨-, -, hjoin, hagain⟩ := hsound line m hline
  exact ⟨hlead, htrail, hfirst, hmore, hline, hjoin, hagain⟩

end Report.Message

end Specimen
