import Specimen.Proofs.AbsolutePaths
import Specimen.Proofs.GivenNames
import Specimen.Proofs.PipeFiles
import Specimen.Proofs.Running
import Specimen.Run.Sharing

/-!
# The files that belong to a source

The files of a run are named after its source, which is named after a
process and a number. All of them are in the build directory, under names
that begin with the two numbers and go on with an ending
(`Run.artefacts_numberedSource`): cutting off the extension takes away the
ending of the source and nothing else, and no ending begins with a digit,
so none is mistaken for the end of a number (`Run.artefactName_inj`). The
program that is compiled is one of these files (`Run.artefacts_of_compile`).

Paths with different last names are not only different. They do not lead
to the same file, whatever directories they are in (`Path.Apart`). That
is why nothing has to be known here of the build directories: two runs may
use one, or two, or one under two spellings.
-/

namespace Specimen

namespace Path

variable {p q m n : String}

/-! ## The last name of a path -/

/-- **A path below a directory** is a text that depends on the directory
only, with the path behind it. -/
theorem exists_join_eq (p : String) : ∃ front, (front = "" ∨ endsWithSlash front = true) ∧
    ∀ q, isAbsolute q = false → join p q = front ++ q := by
  have hjoin : ∀ q, isAbsolute q = false →
      join p q = if p == "" || endsWithSlash p then p ++ q else p ++ "/" ++ q := by
    intro q hq
    unfold join
    rw [hq, if_neg Bool.false_ne_true]
  by_cases hp : (p == "" || endsWithSlash p) = true
  · refine ⟨p, (Bool.or_eq_true_iff.mp hp).imp eq_of_beq id, fun q hq => ?_⟩
    rw [hjoin q hq, if_pos hp]
  · refine ⟨p ++ "/", .inr ?_, fun q hq => ?_⟩
    · rw [endsWithSlash_append p (by decide)]
      rfl
    · rw [hjoin q hq, if_neg hp]

/-- **What a path ends in is put behind it** as well as behind its last
name. -/
theorem join_append (hn : IsName n) (s : String) : join p n ++ s = join p (n ++ s) := by
  obtain ⟨front, -, hjoin⟩ := exists_join_eq p
  rw [hjoin n hn.isAbsolute, hjoin _ ((isAbsolute_append hn.ne_empty s).trans hn.isAbsolute),
    String.append_assoc]

/-- The last piece of a path below a directory. -/
theorem getLast?_pieces_join (hn : IsName n) :
    ((pieces (join p n)).filter (· != "")).getLast? = some n := by
  have hpiece : (pieces n).filter (· != "") = [n] := by
    rw [pieces, cut_of_forall hn.no_slash, List.map_singleton, String.ofList_toList,
      List.filter_singleton, bne_iff_ne.mpr hn.ne_empty]
    rfl
  obtain ⟨front, rfl | hslash, hjoin⟩ := exists_join_eq p
  · rw [hjoin n hn.isAbsolute, String.empty_append, hpiece]
    rfl
  · obtain ⟨dir, rfl⟩ := exists_eq_append_slash hslash
    rw [hjoin n hn.isAbsolute, pieces_append_slash, List.filter_append, hpiece,
      List.getLast?_concat]

theorem endsWithSlash_join_name (hn : IsName n) : endsWithSlash (join p n) = false := by
  obtain ⟨front, -, hjoin⟩ := exists_join_eq p
  rw [hjoin n hn.isAbsolute, endsWithSlash_append front hn.ne_empty, hn.endsWithSlash]

/-- Names are told apart by their components. -/
theorem Component.ofName_injective : Component.ofName.Injective := by
  intro m n h
  unfold ofName at h
  split at h <;> split at h
  next hm hn => exact (eq_of_beq hm).trans (eq_of_beq hn).symm
  next => cases h
  next => cases h
  next => exact Component.normal.inj h

/-- The last component of a path below a directory. -/
theorem getLast?_components_join (hn : IsName n) :
    (components (join p n)).getLast? = some (.ofName n) := by
  have hbody : (names (join p n)).map Component.ofName
      = (names p).map Component.ofName ++ [.ofName n] := by
    rw [names_join p hn.isAbsolute, hn.names_eq, List.map_append, List.map_singleton]
  unfold components
  rw [hbody]
  split
  next => rw [← List.cons_append, List.getLast?_concat]
  next =>
    split
    next => rw [← List.cons_append, List.getLast?_concat]
    next => rw [List.getLast?_concat]

/-! ## Paths that are apart -/

/-- **Two paths are apart**: they are different, and they never lead to the
same place. -/
structure Apart (a b : String) : Prop where
  /-- They are different paths. -/
  not_same : same a b = false
  /-- They lead to different places, from wherever, and whatever is
  there. -/
  places : ∀ (t t' : FileTree) (here here' : Place) (found found' : Place × Entry),
    t.find here a = .ok found → t'.find here' b = .ok found' → found.1 ≠ found'.1

/-- A path whose last name is no `..` leads to a place of that name. -/
theorem getLast?_of_find {t : FileTree} {here : Place} {found : Place × Entry} (hn : IsName n)
    (hup : n ≠ "..") (h : t.find here (join p n) = .ok found) : found.1.getLast? = some n := by
  obtain ⟨l, hlocate, hplace, -⟩ := FileTree.find_eq_ok.mp h
  obtain ⟨dir, rfl⟩ := FileTree.locate_of_getLast? (getLast?_pieces_join hn) hn.ne_dot hup hlocate
  rw [← hplace]
  exact List.getLast?_concat

/-- **Paths with different last names are apart.** They are no spellings
of one path, and they lead to different places at any time, whatever
directories come before the names. -/
theorem apart_join (hm : IsName m) (hn : IsName n) (hmup : m ≠ "..") (hnup : n ≠ "..")
    (hne : m ≠ n) : Apart (join p m) (join q n) where
  not_same := by
    refine beq_eq_false_iff_ne.mpr fun h => hne (Component.ofName_injective ?_)
    have hlast := congrArg List.getLast? h
    rw [getLast?_components_join hm, getLast?_components_join hn] at hlast
    exact Option.some.inj hlast
  places := by
    intro t t' here here' found found' hfind hfind' hplace
    have hlast := getLast?_of_find hm hmup hfind
    rw [hplace, getLast?_of_find hn hnup hfind'] at hlast
    exact hne (Option.some.inj hlast).symm

/-! ## Cutting off the extension -/

/-- A name with an extension is no `..`. -/
theorem append_extension_ne_up {base ext : String} (hbase : base ≠ "") (hext : ext ≠ "") :
    base ++ "." ++ ext ≠ ".." := by
  have hbase' : base.length ≠ 0 := mt String.length_eq_zero_iff.mp hbase
  have hext' : ext.length ≠ 0 := mt String.length_eq_zero_iff.mp hext
  intro h
  have hlength := congrArg String.length h
  rw [String.length_append, String.length_append] at hlength
  have hdot : ".".length = 1 := rfl
  have hup : "..".length = 2 := rfl
  omega

/-- **A name without its extension.** -/
theorem stem_append {base ext : String} (hbase : base ≠ "") (hext : ext ≠ "")
    (hdots : ∀ c ∈ ext.toList, c ≠ '.') : stem (base ++ "." ++ ext) = base := by
  have hlist : (base ++ "." ++ ext).toList = base.toList ++ '.' :: ext.toList := by
    rw [String.toList_append, String.toList_append, List.append_assoc]
    rfl
  have htake : (base.toList ++ '.' :: ext.toList).reverse.takeWhile (· != '.')
      = ext.toList.reverse := by
    rw [List.reverse_append, List.reverse_cons, List.append_assoc, List.takeWhile_append_of_pos
      fun c hc => bne_iff_ne.mpr (hdots c (List.mem_reverse.mp hc))]
    exact List.append_nil _
  have hlength : (base.toList ++ '.' :: ext.toList).length
      = base.toList.length + (1 + ext.toList.length) := by
    rw [List.length_append, List.length_cons, Nat.add_comm 1]
  have hpart : (ext.toList.length == base.toList.length + (1 + ext.toList.length)) = false :=
    beq_eq_false_iff_ne.mpr (by omega)
  have hrest : base.toList.length + (1 + ext.toList.length) - ext.toList.length - 1
      = base.toList.length := by omega
  have hempty : base.toList.isEmpty = false :=
    List.isEmpty_eq_false_iff.mpr fun h => hbase (String.toList_eq_nil_iff.mp h)
  unfold stem
  dsimp only
  rw [hlist, htake, List.length_reverse, hlength,
    beq_eq_false_iff_ne.mpr (append_extension_ne_up hbase hext), hpart, hrest, List.take_left,
    hempty, String.ofList_toList]
  rfl

/-- Nothing comes before the name at the end of a path that ends in neither a
slash nor a dot. -/
theorem trailingLength_cons {c : Char} (hslash : c ≠ '/') (hdot : c ≠ '.') (rest : List Char) :
    withoutExtension.trailingLength (c :: rest) = 0 := by
  unfold withoutExtension.trailingLength
  split
  next h => exact absurd (List.cons.inj h).1 hslash
  next h => exact absurd (List.cons.inj h).1 hdot
  next => rfl

/-- **A path below a directory without the extension of its last name.**
The extension is cut from the text of the path, but what comes before the
last name plays no part in that, so the directory may have dots in its own
name. -/
theorem withoutExtension_join {base ext : String} (hbase : base ≠ "") (hdot : base ≠ ".")
    (hext : ext ≠ "") (hdots : ∀ c ∈ ext.toList, c ≠ '.') (hn : IsName (base ++ "." ++ ext)) :
    withoutExtension (join p (base ++ "." ++ ext)) = join p base := by
  have hstem := stem_append hbase hext hdots
  have hup := append_extension_ne_up hbase hext
  generalize hname : base ++ "." ++ ext = name at hn hstem hup ⊢
  have hrel : isAbsolute base = false := by
    rw [← isAbsolute_append hbase ("." ++ ext), ← String.append_assoc, hname]
    exact hn.isAbsolute
  obtain ⟨front, -, hjoin⟩ := exists_join_eq p
  have hlast : (names (join p name)).getLast? = some name := by
    rw [names_join p hn.isAbsolute, hn.names_eq, List.getLast?_concat]
  have htrailing : withoutExtension.trailingLength (join p name).toList.reverse = 0 := by
    obtain ⟨before, c, hc⟩ := (List.eq_nil_or_concat ext.toList).resolve_left fun h =>
      hext (String.toList_eq_nil_iff.mp h)
    rw [List.concat_eq_append] at hc
    have hmem : c ∈ ext.toList := hc ▸ List.mem_concat_self
    have hslash : c ≠ '/' := by
      refine beq_eq_false_iff_ne.mp (hn.no_slash c ?_)
      rw [← hname, String.toList_append]
      exact List.mem_append_right _ hmem
    rw [hjoin name hn.isAbsolute, ← hname, String.toList_append, String.toList_append, hc,
      ← List.append_assoc, ← List.append_assoc, List.reverse_concat]
    exact trailingLength_cons hslash (hdots c hmem) _
  unfold withoutExtension
  rw [hlast]
  dsimp only
  rw [beq_eq_false_iff_ne.mpr hup, htrailing, hstem, beq_eq_false_iff_ne.mpr hdot,
    hjoin name hn.isAbsolute, hjoin base hrel, String.toList_append, List.length_append,
    String.length_toList (s := name), Nat.sub_zero, Nat.add_sub_cancel, List.take_left,
    String.ofList_toList]
  rfl

end Path

namespace Run

/-! ## The names of the files of a run -/

/-- The name of a file that belongs to a numbered source, with an
ending. -/
def artefactName (processId n : Nat) (ending : String) : String :=
  "qit-" ++ toString processId ++ "-" ++ toString n ++ ending

/-- **The endings**: of the source, of the program, and of its pipes. -/
def endings : List String := [".cpp", "", Channel.report.suffix, Channel.output.suffix]

/-- No ending goes on with a number, or has a slash. -/
theorem endings_spec : ∀ s ∈ endings,
    (∀ c ∈ s.toList.head?, c.isDigit = false) ∧ ∀ c ∈ s.toList, (c == '/') = false := by
  have hall : (endings.all fun s => (s.toList.head?.all fun c => !c.isDigit) &&
      s.toList.all fun c => !(c == '/')) = true := by decide +kernel
  simpa only [List.all_eq_true, Bool.and_eq_true, Option.all_eq_true, Option.mem_def,
    Bool.not_eq_true'] using hall

variable {processId processId' m n : Nat} {s s' dir dir' : String}

theorem toList_artefactName (processId n : Nat) (s : String) :
    (artefactName processId n s).toList = 'q' :: 'i' :: 't' :: '-' ::
      ((toString processId).toList ++ '-' :: ((toString n).toList ++ s.toList)) := by
  unfold artefactName
  simp only [String.toList_append, List.append_assoc]
  rfl

/-- **The numbers and the ending are told by the name.** No digit comes
behind either of the two numbers, so each is told where it ends, and the
ending is what is left. -/
theorem artefactName_inj (hs : s ∈ endings) (hs' : s' ∈ endings)
    (h : artefactName processId m s = artefactName processId' n s') :
    processId = processId' ∧ m = n ∧ s = s' := by
  unfold artefactName at h
  simp only [String.append_assoc, String.append_right_inj] at h
  have hdash : ∀ rest : String, ∀ c ∈ ("-" ++ rest).toList.head?, c.isDigit = false := by
    intro rest c hc
    rw [String.toList_append] at hc
    cases hc
    rfl
  obtain ⟨hprocess, hrest⟩ := toString_append_inj (hdash _) (hdash _) h
  obtain ⟨hnumber, hending⟩ := toString_append_inj (endings_spec s hs).1 (endings_spec s' hs').1
    (String.append_right_inj "-" |>.mp hrest)
  exact ⟨hprocess, hnumber, hending⟩

/-- Such a name has no slash in it, so it leads to something in the
directory itself. -/
theorem isName_artefactName (hs : s ∈ endings) : Path.IsName (artefactName processId n s) where
  ne_empty := by
    intro h
    have hlist := toList_artefactName processId n s
    rw [h] at hlist
    cases hlist
  ne_dot := by
    intro h
    have hlist := toList_artefactName processId n s
    rw [h] at hlist
    cases hlist
  no_slash := by
    have hdigits : ∀ i : Nat, ∀ c ∈ (toString i).toList, (c == '/') = false := by
      intro i c hc
      refine beq_eq_false_iff_ne.mpr ?_
      rintro rfl
      cases isDigit_of_mem_toString hc
    rw [toList_artefactName]
    simp only [List.forall_mem_cons, List.forall_mem_append]
    exact ⟨rfl, rfl, rfl, rfl, hdigits processId, rfl, hdigits n, (endings_spec s hs).2⟩

theorem artefactName_ne_up (processId n : Nat) (s : String) : artefactName processId n s ≠ ".." := by
  intro h
  have hlist := toList_artefactName processId n s
  rw [h] at hlist
  cases hlist

/-! ## The files of a run -/

/-- **The files that belong to a numbered source** are in its directory, and
their names differ in the ending only. -/
theorem artefacts_numberedSource (dir : String) (processId n : Nat) :
    artefacts (numberedSource dir processId n)
      = endings.map fun s => Path.join dir (artefactName processId n s) := by
  have hprogram : Path.IsName (artefactName processId n "") := isName_artefactName (by decide)
  have hending : ∀ s, artefactName processId n "" ++ s = artefactName processId n s := by
    intro s
    unfold artefactName
    rw [String.append_empty]
  have hsource : artefactName processId n "" ++ "." ++ "cpp" = artefactName processId n ".cpp" := by
    rw [String.append_assoc]
    exact hending ".cpp"
  have hexe : Path.withoutExtension (numberedSource dir processId n)
      = Path.join dir (artefactName processId n "") := by
    have hjoin : numberedSource dir processId n
        = Path.join dir (artefactName processId n "" ++ "." ++ "cpp") := by
      rw [hsource]
      rfl
    have hall : ("cpp".toList.all fun c => c != '.') = true := by decide
    rw [hjoin, Path.withoutExtension_join hprogram.ne_empty hprogram.ne_dot (by decide)
      fun c hc => bne_iff_ne.mp (List.all_eq_true.mp hall c hc)]
    rw [hsource]
    exact isName_artefactName (by decide)
  have hpipe : ∀ c : Channel, c.path (Path.join dir (artefactName processId n ""))
      = Path.join dir (artefactName processId n c.suffix) := by
    intro c
    rw [c.path_eq, Path.join_append hprogram, hending]
  unfold artefacts
  dsimp only
  rw [hexe, hpipe, hpipe]
  rfl

/-- Files that belong to numbered sources are apart if their names
differ. -/
theorem apart_artefactName (hs : s ∈ endings) (hs' : s' ∈ endings)
    (hne : ¬(processId = processId' ∧ m = n ∧ s = s')) :
    Path.Apart (Path.join dir (artefactName processId m s))
      (Path.join dir' (artefactName processId' n s')) :=
  Path.apart_join (isName_artefactName hs) (isName_artefactName hs')
    (artefactName_ne_up processId m s) (artefactName_ne_up processId' n s')
    fun h => hne (artefactName_inj hs hs' h)

/-- **Sources with different numbers share no file**, in whichever
directories they are. -/
theorem apart_of_mem_artefacts (hne : ¬(processId = processId' ∧ m = n)) {a b : String}
    (ha : a ∈ artefacts (numberedSource dir processId m))
    (hb : b ∈ artefacts (numberedSource dir' processId' n)) : Path.Apart a b := by
  rw [artefacts_numberedSource] at ha hb
  obtain ⟨s, hs, rfl⟩ := List.mem_map.mp ha
  obtain ⟨s', hs', rfl⟩ := List.mem_map.mp hb
  exact apart_artefactName hs hs' fun h => hne ⟨h.1, h.2.1⟩

/-- **The files that belong to a source are four**, and no two of them are
one. -/
theorem pairwise_apart_artefacts (dir : String) (processId n : Nat) :
    (artefacts (numberedSource dir processId n)).Pairwise Path.Apart := by
  rw [artefacts_numberedSource, List.pairwise_map]
  have hnodup : endings.Nodup := by decide
  exact hnodup.imp_of_mem fun hs hs' hne => apart_artefactName hs hs' fun h => hne h.2.2

/-- **The program that is compiled from a source** belongs to it, and so do
its pipes. -/
theorem artefacts_of_compile {c : Config} {source exe : String} {h h' : Host}
    (hrun : (compile c source).run h = (.ok exe, h')) :
    artefacts source = [source, exe, Channel.report.path exe, Channel.output.path exe] := by
  rw [compile, run_bind, run_get] at hrun
  rcases bind_cases hrun with ⟨o, h₁, -, hrest⟩ | ⟨e, -, hr⟩
  · split at hrest
    next =>
      cases hrest
      rfl
    next => cases hrest
  · cases hr

end Run

end Specimen
