import Mathlib.Data.String.Basic
import Specimen.Proofs.Pieces

/-!
# Absolute paths

The absolute spelling of a path drops what does not count: slashes that
are doubled, and every `.`. It keeps each `..`, two slashes at the
beginning and one at the end. So there are paths that lead to the same
place and stay different, and the question is whether it matters when a
path is spelled absolutely: a directory before a file is looked for in it,
or the file's path afterwards.

What counts of a path are the slashes it begins with, its names, and
whether there is a slash at its end, and each of them is known of a path
below a directory (`rootText_join`, `names_join`, `endsWithSlash_join`).
Without the last of the three, an absolute spelling is **plain**: the rest
makes up all of its text (`Plain`). So it is its own absolute spelling
(`absolute?_of_absolute?`), and a path below it goes on where it leads
(`absolute?_join_of_absolute?`). Only the working directory has to be plain
as well, and systems see to that.
-/

namespace Specimen.Path

/-- **A name in a path**: it says where to go, and has no slash. -/
structure IsName (n : String) : Prop where
  /-- It has a character. -/
  ne_empty : n ≠ ""
  /-- It is not the name for staying where one is. -/
  ne_dot : n ≠ "."
  /-- It is a single piece. -/
  no_slash : ∀ c ∈ n.toList, (c == '/') = false

/-! ## Names of a longer path -/

variable {p q n : String}

theorem pieces_append_slash (p q : String) : pieces (p ++ "/" ++ q) = pieces p ++ pieces q := by
  have hlist : (p ++ "/" ++ q).toList = p.toList ++ '/' :: q.toList := by
    rw [String.toList_append, String.toList_append, List.append_assoc]
    rfl
  have hcut := @cut_append_cons_of_sep _ (· == '/') '/' rfl p.toList q.toList
  rw [pieces, hlist, hcut, List.map_append]
  rfl

theorem names_append_slash (p q : String) : names (p ++ "/" ++ q) = names p ++ names q := by
  rw [names, pieces_append_slash, List.filter_append]
  rfl

theorem exists_eq_append_slash (h : endsWithSlash p = true) : ∃ front, p = front ++ "/" := by
  obtain ⟨front, hfront⟩ := List.getLast?_eq_some_iff.mp (eq_of_beq h)
  refine ⟨String.ofList front, String.toList_injective ?_⟩
  rw [hfront, String.toList_append, String.toList_ofList]
  rfl

theorem names_append_slash_end (p : String) : names (p ++ "/") = names p := by
  have h := names_append_slash p ""
  rwa [String.append_empty, show names "" = [] from rfl, List.append_nil] at h

/-- What a path below a directory looks like. -/
theorem join_cases (p : String) (hq : isAbsolute q = false) :
    (p = "" ∨ endsWithSlash p = true) ∧ join p q = p ++ q ∨
      p ≠ "" ∧ endsWithSlash p = false ∧ join p q = p ++ "/" ++ q := by
  unfold join
  rw [hq, if_neg Bool.false_ne_true]
  by_cases hempty : p = ""
  · exact .inl ⟨.inl hempty, by rw [hempty]; rfl⟩
  · have hbeq : (p == "") = false := beq_eq_false_iff_ne.mpr hempty
    rw [hbeq, Bool.false_or]
    cases endsWithSlash p with
    | true => exact .inl ⟨.inr rfl, rfl⟩
    | false => exact .inr ⟨hempty, rfl, rfl⟩

/-- A path below a directory is not empty. -/
theorem join_ne_empty (hp : p ≠ "") (q : String) : join p q ≠ "" := by
  cases hq : isAbsolute q with
  | true =>
    rw [join, if_pos hq]
    rintro rfl
    cases hq
  | false =>
    intro h
    rcases join_cases p hq with ⟨-, hjoin⟩ | ⟨-, -, hjoin⟩ <;> rw [hjoin] at h
    · exact hp (String.append_eq_empty_iff.mp h).1
    · exact hp (String.append_eq_empty_iff.mp (String.append_eq_empty_iff.mp h).1).1

/-- **The names of a path below a directory.** -/
theorem names_join (p : String) (hq : isAbsolute q = false) :
    names (join p q) = names p ++ names q := by
  rcases join_cases p hq with ⟨rfl | hslash, hjoin⟩ | ⟨-, -, hjoin⟩
  · rw [hjoin, String.empty_append]
    rfl
  · obtain ⟨front, rfl⟩ := exists_eq_append_slash hslash
    rw [hjoin, names_append_slash, names_append_slash_end]
  · rw [hjoin, names_append_slash]

theorem isAbsolute_append (hp : p ≠ "") (t : String) : isAbsolute (p ++ t) = isAbsolute p := by
  rw [isAbsolute, isAbsolute, String.toList_append, List.head?_append_of_ne_nil]
  exact fun h => hp (String.toList_eq_nil_iff.mp h)

/-- A path below a directory is absolute if the directory is. -/
theorem isAbsolute_join (p : String) (hq : isAbsolute q = false) :
    isAbsolute (join p q) = isAbsolute p := by
  by_cases hempty : p = ""
  · rw [hempty, join, hq]
    exact hq
  · rcases join_cases p hq with ⟨-, hjoin⟩ | ⟨-, -, hjoin⟩
    · rw [hjoin, isAbsolute_append hempty]
    · rw [hjoin, String.append_assoc, isAbsolute_append hempty]

/-- **The slashes that make a path absolute**, told by the two characters
behind the first. Two slashes and no more stay two; one, or more than two,
are one. -/
theorem rootText_eq (hp : isAbsolute p = true) :
    rootText p = if p.toList[1]? = some '/' ∧ p.toList[2]? ≠ some '/' then "//" else "/" := by
  unfold isAbsolute at hp
  unfold rootText
  cases hlist : p.toList with
  | nil =>
    rw [hlist] at hp
    cases hp
  | cons a rest =>
    rw [hlist] at hp
    obtain rfl : a = '/' := eq_of_beq hp
    cases rest with
    | nil => rfl
    | cons b rest =>
      by_cases hb : b = '/'
      · subst hb
        cases rest with
        | nil => rfl
        | cons c rest => by_cases hc : c = '/' <;> simp [hc]
      · simp [hb]

/-- The slashes that make a path absolute stay when it goes on with something
else. -/
theorem rootText_append (hp : isAbsolute p = true) {t : String}
    (ht : endsWithSlash p = true → isAbsolute t = false) : rootText (p ++ t) = rootText p := by
  have hne : p ≠ "" := by
    rintro rfl
    cases hp
  rw [rootText_eq hp, rootText_eq ((isAbsolute_append hne t).trans hp), String.toList_append]
  unfold isAbsolute at hp ht
  unfold endsWithSlash at ht
  rw [List.head?_eq_getElem?] at hp ht
  cases hp' : p.toList with
  | nil =>
    rw [hp'] at hp
    cases hp
  | cons a rest =>
    rw [hp'] at hp ht
    obtain rfl : a = '/' := eq_of_beq hp
    cases rest with
    | nil =>
      have hnext : t.toList[0]? ≠ some '/' := bne_iff_ne.mp (by rw [bne, ht rfl]; rfl)
      simp [hnext]
    | cons b rest =>
      cases rest with
      | nil =>
        by_cases hb : b = '/'
        · subst hb
          have hnext : t.toList[0]? ≠ some '/' := bne_iff_ne.mp (by rw [bne, ht rfl]; rfl)
          simp [hnext]
        · simp [hb]
      | cons c rest => rfl

/-- A path below an absolute directory begins with the directory's
slashes. -/
theorem rootText_join (hp : isAbsolute p = true) (hq : isAbsolute q = false) :
    rootText (join p q) = rootText p := by
  rcases join_cases p hq with ⟨-, hjoin⟩ | ⟨-, hslash, hjoin⟩
  · rw [hjoin, rootText_append hp fun _ => hq]
  · rw [hjoin, String.append_assoc, rootText_append hp]
    intro h
    rw [hslash] at h
    cases h

theorem endsWithSlash_append (p : String) (hq : q ≠ "") :
    endsWithSlash (p ++ q) = endsWithSlash q := by
  rw [endsWithSlash, endsWithSlash, String.toList_append, List.getLast?_append_of_ne_nil]
  exact fun h => hq (String.toList_eq_nil_iff.mp h)

/-- A path below a directory ends with a slash if it did or was nothing. -/
theorem endsWithSlash_join (hp : p ≠ "") (hq : isAbsolute q = false) :
    endsWithSlash (join p q) = (q == "" || endsWithSlash q) := by
  by_cases hempty : q = ""
  · subst hempty
    rcases join_cases p hq with ⟨hempty | hslash, hjoin⟩ | ⟨-, -, hjoin⟩
    · exact absurd hempty hp
    · rwa [hjoin, String.append_empty]
    · rw [hjoin, String.append_empty, endsWithSlash_append p (by decide)]
      rfl
  · rw [beq_eq_false_iff_ne.mpr hempty, Bool.false_or]
    rcases join_cases p hq with ⟨-, hjoin⟩ | ⟨-, -, hjoin⟩ <;>
      rw [hjoin, endsWithSlash_append _ hempty]

/-! ## Single names -/

theorem isName_of_mem_names (h : n ∈ names p) : IsName n := by
  obtain ⟨hpiece, hkept⟩ := List.mem_filter.mp h
  obtain ⟨hempty, hdot⟩ := Bool.and_eq_true_iff.mp hkept
  obtain ⟨piece, hcut, rfl⟩ := List.mem_map.mp hpiece
  refine ⟨bne_iff_ne.mp hempty, bne_iff_ne.mp hdot, ?_⟩
  rw [String.toList_ofList]
  exact sep_of_mem_cut hcut

theorem IsName.isAbsolute (hn : IsName n) : isAbsolute n = false := by
  rw [Path.isAbsolute, Bool.eq_false_iff]
  intro h
  have hslash := hn.no_slash '/' (List.mem_of_head? (eq_of_beq h))
  cases hslash

theorem IsName.endsWithSlash (hn : IsName n) : endsWithSlash n = false := by
  rw [Path.endsWithSlash, Bool.eq_false_iff]
  intro h
  have hslash := hn.no_slash '/' (List.mem_of_getLast? (eq_of_beq h))
  cases hslash

theorem IsName.names_eq (hn : IsName n) : names n = [n] := by
  have hkept : (n != "" && n != ".") = true :=
    Bool.and_eq_true_iff.mpr ⟨bne_iff_ne.mpr hn.ne_empty, bne_iff_ne.mpr hn.ne_dot⟩
  rw [names, pieces, cut_of_forall hn.no_slash, List.map_singleton, String.ofList_toList,
    List.filter_singleton, hkept]
  rfl

/-- **What a path looks like that goes on by names.** -/
theorem foldl_join_spec (hp : isAbsolute p = true) {ns : List String} (hns : ∀ n ∈ ns, IsName n) :
    isAbsolute (ns.foldl join p) = true ∧ rootText (ns.foldl join p) = rootText p ∧
      names (ns.foldl join p) = names p ++ ns := by
  induction ns generalizing p with
  | nil => exact ⟨hp, rfl, (List.append_nil _).symm⟩
  | cons n ns ih =>
    obtain ⟨hn, hns⟩ := List.forall_mem_cons.mp hns
    have hrel := hn.isAbsolute
    obtain ⟨habsolute, hroot, hnames⟩ := ih ((isAbsolute_join p hrel).trans hp) hns
    refine ⟨habsolute, hroot.trans (rootText_join hp hrel), ?_⟩
    rw [List.foldl_cons, hnames, names_join p hrel, hn.names_eq, List.append_assoc]
    rfl

/-! ## Plain paths -/

/-- **A plain path** is absolute, and its spelling has nothing but the
slashes it begins with and its names: no `.`, no slash twice, and none at
the end. Systems give working directories in this form. -/
structure Plain (p : String) : Prop where
  /-- It is absolute. -/
  absolute : isAbsolute p = true
  /-- It is spelled by its names. -/
  spelled : (names p).foldl join (rootText p) = p

theorem plain_rootText (hp : isAbsolute p = true) : Plain (rootText p) := by
  rw [rootText_eq hp]
  split <;> exact ⟨by decide +kernel, by decide +kernel⟩

/-- **A plain path that goes on by names is plain.** -/
theorem Plain.foldl_join (hp : Plain p) {ns : List String} (hns : ∀ n ∈ ns, IsName n) :
    Plain (ns.foldl join p) := by
  obtain ⟨habsolute, hroot, hnames⟩ := foldl_join_spec hp.absolute hns
  refine ⟨habsolute, ?_⟩
  rw [hroot, hnames, List.foldl_append, hp.spelled]

/-- A path with a slash at its end, if it is to have one. -/
def finish (slash : Bool) (p : String) : String := if slash then withSlash p else p

theorem withSlash_eq_join (hp : p ≠ "") : withSlash p = join p "" := by
  have hrel : ¬isAbsolute "" = true := Bool.false_ne_true
  rw [withSlash, join, if_neg hrel, beq_eq_false_iff_ne.mpr hp, Bool.false_or,
    String.append_empty, String.append_empty]

/-- **What a plain path looks like with a slash at its end or without.**
It begins as before and has the same names, so the absolute spelling of a
path that ends in a slash is known from the one without. -/
theorem Plain.finish_spec (hp : Plain p) (slash : Bool) :
    isAbsolute (finish slash p) = true ∧ rootText (finish slash p) = rootText p ∧
      names (finish slash p) = names p ∧
      finish (endsWithSlash (finish slash p)) p = finish slash p := by
  have hne : p ≠ "" := by
    rintro rfl
    cases hp.absolute
  have hempty : isAbsolute "" = false := rfl
  cases slash with
  | false =>
    refine ⟨hp.absolute, rfl, rfl, ?_⟩
    show finish (endsWithSlash p) p = p
    unfold finish withSlash
    cases endsWithSlash p <;> rfl
  | true =>
    have hfinish : finish true p = join p "" := withSlash_eq_join hne
    rw [hfinish, isAbsolute_join p hempty, rootText_join hp.absolute hempty, names_join p hempty,
      endsWithSlash_join hne hempty]
    exact ⟨hp.absolute, rfl, List.append_nil _, hfinish⟩

/-! ## Absolute spellings -/

/-- Where the absolute spelling of a path starts. -/
def base (workingDir p : String) : String := if isAbsolute p then rootText p else workingDir

variable {w d : String}

/-- **The absolute spelling of a path**, from where it starts. -/
theorem absolute?_eq (w : String) (hp : p ≠ "") :
    absolute? w p = some (finish (endsWithSlash p) ((names p).foldl join (base w p))) := by
  rw [absolute?, beq_eq_false_iff_ne.mpr hp]
  rfl

/-- Where the absolute spelling of a path starts is plain. -/
theorem plain_base (hw : Plain w) (p : String) : Plain (base w p) := by
  unfold base
  split
  next hp => exact plain_rootText hp
  next => exact hw

/-- **Where the absolute spelling of a path leads is plain.** -/
theorem plain_foldl_join_base (hw : Plain w) (p : String) :
    Plain ((names p).foldl join (base w p)) :=
  (plain_base hw p).foldl_join fun _ => isName_of_mem_names

/-- **A plain path is its absolute spelling**, with a slash at its end or
without. -/
theorem Plain.absolute?_finish (hp : Plain p) (w : String) (slash : Bool) :
    absolute? w (finish slash p) = some (finish slash p) := by
  obtain ⟨habsolute, hroot, hnames, hfinish⟩ := hp.finish_spec slash
  have hne : finish slash p ≠ "" := by
    intro h
    rw [h] at habsolute
    cases habsolute
  rw [absolute?_eq w hne, base, if_pos habsolute, hroot, hnames, hp.spelled, hfinish]

/-- **An absolute spelling is its own absolute spelling**, in any working
directory. -/
theorem absolute?_of_absolute? (hw : Plain w) (h : absolute? w p = some q) :
    isAbsolute q = true ∧ ∀ w', absolute? w' q = some q := by
  have hp : p ≠ "" := by
    rintro rfl
    cases h
  rw [absolute?_eq w hp] at h
  cases h
  have hplain := plain_foldl_join_base hw p
  exact ⟨(hplain.finish_spec _).1, fun w' => hplain.absolute?_finish w' _⟩

/-- Where the spelling of a path below a directory starts. -/
theorem base_join (w d : String) (hq : isAbsolute q = false) : base w (join d q) = base w d := by
  unfold base
  rw [isAbsolute_join d hq]
  split
  next hd => exact rootText_join hd hq
  next => rfl

/-- The absolute spelling of a path below a directory goes on from where that
of the directory leads. -/
theorem absolute?_join (w : String) (hd : d ≠ "") (hq : isAbsolute q = false) :
    absolute? w (join d q) = some (finish (q == "" || endsWithSlash q)
      ((names q).foldl join ((names d).foldl join (base w d)))) := by
  rw [absolute?_eq w (join_ne_empty hd q), endsWithSlash_join hd hq, names_join d hq, base_join w d hq,
    List.foldl_append]

/-- **A directory may be spelled absolutely first.** Its absolute spelling
is plain, so it is its own absolute spelling, and what is below the
directory is spelled alike from both. -/
theorem absolute?_join_of_absolute? (hw : Plain w) {dir : String} (h : absolute? w d = some dir)
    (q : String) : absolute? w (join dir q) = absolute? w (join d q) := by
  have hd : d ≠ "" := by
    rintro rfl
    cases h
  cases hq : isAbsolute q with
  | true =>
    -- an absolute path does not depend on the directory
    rw [join, join, hq, if_pos rfl, if_pos rfl]
  | false =>
    rw [absolute?_eq w hd] at h
    cases h
    have hplain := plain_foldl_join_base hw d
    obtain ⟨habsolute, hroot, hnames, -⟩ := hplain.finish_spec (endsWithSlash d)
    have hne : finish (endsWithSlash d) ((names d).foldl join (base w d)) ≠ "" := by
      intro h
      rw [h] at habsolute
      cases habsolute
    rw [absolute?_join w hne hq, absolute?_join w hd hq, base, if_pos habsolute, hroot, hnames,
      hplain.spelled]

end Specimen.Path
