import Specimen.Proofs.AbsolutePaths
import Specimen.Proofs.FunctionHeads

/-!
# The source directory may be given in any spelling

The directory with the files of functions is given as a path, and so are
the files in it. What the rest of a run sees of both is the absolute
spelling of the two together. It is the same whether the directory was
given absolutely or not, and it does not change when it is taken again
(`Function.sourcePath?_absolute`).

A program has the directory for its includes alone: nothing that is
declared depends on it, so a program with another directory is the same
up to there (`Program.foldl_place_within`). Two spellings of the directory
therefore give the same source, and the same files are looked for and
created.
-/

namespace Specimen

variable {w d dir : String}

/-! ## Paths of files -/

/-- The path of a function's file is the absolute spelling of a path below the
source directory. -/
theorem Function.sourcePath?_of_external {f : Function} {file path : String}
    (hfile : f.body = .external file) (hpath : Path.absolute? w (Path.join d file) = some path) :
    f.sourcePath? w d = some path := by
  rw [sourcePath?, hfile]
  dsimp only
  rw [Path.absolute, hpath]
  rfl

/-- **The path of a function's file is canonical**: absolute, its own
absolute spelling, and the same for the absolute spelling of the source
directory. -/
theorem Function.sourcePath?_absolute (hw : Path.Plain w) (hdir : Path.absolute? w d = some dir)
    {f : Function} {file : String} (hfile : f.body = .external file) :
    ∃ path, f.sourcePath? w d = some path ∧ f.sourcePath? w dir = some path ∧
      Path.isAbsolute path = true ∧ Path.absolute? w path = some path := by
  have hd : d ≠ "" := by
    rintro rfl
    cases hdir
  obtain ⟨path, hpath⟩ : ∃ path, Path.absolute? w (Path.join d file) = some path :=
    ⟨_, Path.absolute?_eq w (Path.join_ne_empty hd file)⟩
  have hsame : Path.absolute? w (Path.join dir file) = some path :=
    (Path.absolute?_join_of_absolute? hw hdir file).trans hpath
  obtain ⟨habsolute, hagain⟩ := Path.absolute?_of_absolute? hw hpath
  exact ⟨path, sourcePath?_of_external hfile hpath, sourcePath?_of_external hfile hsame,
    habsolute, hagain w⟩

theorem Function.sourcePath?_eq (hw : Path.Plain w) (hdir : Path.absolute? w d = some dir)
    (f : Function) : f.sourcePath? w dir = f.sourcePath? w d := by
  cases hbody : f.body with
  | external file =>
    obtain ⟨path, hpath, hsame, -⟩ := sourcePath?_absolute hw hdir hbody
    rw [hpath, hsame]
  | inline text => rw [sourcePath?, sourcePath?, hbody]

/-! ## Programs -/

namespace Program

variable (s : Program) (dir : String)

/-- **A program with another source directory.** -/
def within : Program := { s with sourceDir := dir }

theorem visit_within (n : Node) :
    (s.within dir).visit n = ((s.visit n).1, (s.visit n).2.within dir) := by
  cases n with
  | productClass p =>
    obtain ⟨name, fields⟩ := p
    cases name <;> rfl
  | generator | enumerator | function => rfl

theorem write_within (n : Node) (reserved : Option String) :
    (s.within dir).write n reserved = (s.write n reserved).within dir := by
  cases n <;> rfl

theorem place_within (n : Node) : (s.within dir).place n = (s.place n).within dir := by
  have hvisits : (s.within dir).visits n.key = s.visits n.key := rfl
  rw [place, place, hvisits, visit_within]
  split
  · rfl
  · exact write_within ..

/-- **Nothing that is declared depends on the source directory.** -/
theorem foldl_place_within (calls : List Node) :
    calls.foldl place (s.within dir) = (calls.foldl place s).within dir := by
  induction calls generalizing s with
  | nil => rfl
  | cons n calls ih => rw [List.foldl_cons, List.foldl_cons, place_within, ih]

variable {s dir}

/-- **A source depends on the source directory for its includes alone.** -/
theorem sourceCode_within
    (h : ∀ f : Function, f.sourcePath? s.workingDir dir = f.sourcePath? s.workingDir s.sourceDir)
    (t : Target) : (s.within dir).sourceCode t = s.sourceCode t := by
  have hincludes : (s.within dir).includes = s.includes := by
    show (s.functions.filterMap fun f => f.sourcePath? s.workingDir dir).foldl _ _ = s.includes
    rw [includes, funext h]
  rw [sourceCode, hincludes]
  rfl

/-- A program of its own for a target has the same source in both spellings of
the directory. -/
theorem sourceOf_absolute (hw : Path.Plain w) (hdir : Path.absolute? w d = some dir) (t : Target)
    (args : RunArgs) : sourceOf w dir t args = sourceOf w d t args := by
  cases hargs : t.checkArgs args with
  | error e =>
    have hrefused : ∀ dir, sourceOf w dir t args = .error e := fun dir => by
      rw [sourceOf, collect, hargs]
      rfl
    rw [hrefused, hrefused]
  | ok =>
    have hstart : { start w dir with args } = { start w d with args }.within dir := rfl
    rw [sourceOf_eq w dir hargs, sourceOf_eq w d hargs, hstart, foldl_place_within,
      sourceCode_within]
    intro f
    obtain ⟨hworkingDir, hsourceDir⟩ := dirs_foldl_place { start w d with args } t.calls
    rw [hworkingDir, hsourceDir]
    exact f.sourcePath?_eq hw hdir

theorem declared_within (w d dir : String) (t : Target) :
    declared w dir t = (declared w d t).within dir := by
  rw [declared_eq, declared_eq]
  exact foldl_place_within (start w d) dir t.calls

end Program

/-! ## Files -/

theorem Target.functionFiles_absolute (hw : Path.Plain w) (hdir : Path.absolute? w d = some dir)
    (t : Target) : t.functionFiles w dir = t.functionFiles w d := by
  rw [functionFiles, functionFiles]
  simp only [Function.sourcePath?_eq hw hdir]

/-- **The same files are looked for**, and the same is done about those that
are missing. -/
theorem Run.checkFunctions_absolute {c : Config} {h : Host} (hw : Path.Plain h.workingDir)
    (hdir : Path.absolute? h.workingDir c.sourceDir = some dir) (t : Target) :
    missingFiles { c with sourceDir := dir } t h = missingFiles c t h ∧
      (checkFunctions { c with sourceDir := dir } t).run h = (checkFunctions c t).run h := by
  have hmissing : missingFiles { c with sourceDir := dir } t h = missingFiles c t h := by
    rw [missingFiles, missingFiles, t.functionFiles_absolute hw hdir]
  refine ⟨hmissing, ?_⟩
  rw [run_checkFunctions, run_checkFunctions, hmissing, Program.declared_within]
  rfl

/-- **A source directory may be given in any spelling.** In a working
directory as systems give it, and for any source directory but the empty
one, the path of each external function's file is absolute, and it stays as
it is when its absolute spelling, or that of the directory, is taken first.
So with the directory as it was given and in its absolute spelling, the
source for a target is the same under all arguments, and there is one if
they fit the target; and the same files are expected, missing, and
created. -/
theorem Program.sourceOf_canonical (w d : String) (hw : Path.Plain w) (hd : d ≠ "") :
    ∃ dir, Path.absolute? w d = some dir ∧
      (∀ (f : Function) (file : String), f.body = .external file →
        ∃ path, f.sourcePath? w d = some path ∧ f.sourcePath? w dir = some path ∧
          Path.isAbsolute path = true ∧ Path.absolute? w path = some path) ∧
      (∀ (t : Target) (args : RunArgs), sourceOf w dir t args = sourceOf w d t args ∧
        (t.checkArgs args = .ok () → ∃ source, sourceOf w d t args = .ok source)) ∧
      ∀ (c : Config) (t : Target) (h : Host),
        let given : Config := { c with sourceDir := d }
        let spelled : Config := { c with sourceDir := dir }
        let h : Host := { h with workingDir := w }
        t.functionFiles w dir = t.functionFiles w d ∧
        Run.missingFiles spelled t h = Run.missingFiles given t h ∧
        (Run.checkFunctions spelled t).run h = (Run.checkFunctions given t).run h := by
  have hdir := Path.absolute?_eq w hd
  refine ⟨_, hdir, fun f file hfile => f.sourcePath?_absolute hw hdir hfile, fun t args => ?_,
    fun c t h => ?_⟩
  · exact ⟨sourceOf_absolute hw hdir t args, fun hargs => ⟨_, sourceOf_eq w d hargs⟩⟩
  · intro given spelled h
    have hsame : Run.missingFiles spelled t h = Run.missingFiles given t h ∧
        (Run.checkFunctions spelled t).run h = (Run.checkFunctions given t).run h :=
      Run.checkFunctions_absolute (c := given) (h := h) hw hdir t
    exact ⟨t.functionFiles_absolute hw hdir, hsame⟩

/-- A directory that is spelled with dots and a doubled slash, and a file
above it. The way up is not taken away. -/
theorem Program.sourceOf_canonical_dotted :
    let f : Function := ⟨"f", .int, [], .external "../b.cpp"⟩
    let t : Target := .generator (.call f [])
    Path.Plain "/w" ∧ ".//a/." ≠ "" ∧ f.body = .external "../b.cpp" ∧
    t.checkArgs [] = .ok () ∧ Path.absolute? "/w" ".//a/." = some "/w/a" ∧
    f.sourcePath? "/w" ".//a/." = some "/w/a/../b.cpp" ∧
    f.sourcePath? "/w" "/w/a" = some "/w/a/../b.cpp" ∧
    Path.absolute? "/w" "/w/a/../b.cpp" = some "/w/a/../b.cpp" ∧
    ∃ source, sourceOf "/w" ".//a/." t [] = .ok source ∧ sourceOf "/w" "/w/a" t [] = .ok source := by
  intro f t
  have hw : Path.Plain "/w" := ⟨by decide +kernel, by decide +kernel⟩
  have hd : ".//a/." ≠ "" := by decide
  have hargs : t.checkArgs [] = .ok () := rfl
  have hspelled : Path.absolute? "/w" ".//a/." = some "/w/a" := by decide +kernel
  obtain ⟨dir, hdir, hpaths, hsources, -⟩ := sourceOf_canonical "/w" ".//a/." hw hd
  obtain rfl : "/w/a" = dir := Option.some.inj (hspelled.symm.trans hdir)
  obtain ⟨path, hpath, hsame, -, hagain⟩ := hpaths f "../b.cpp" rfl
  have hfile : f.sourcePath? "/w" ".//a/." = some "/w/a/../b.cpp" := by decide +kernel
  obtain rfl : "/w/a/../b.cpp" = path := Option.some.inj (hfile.symm.trans hpath)
  obtain ⟨hsource, hexists⟩ := hsources t []
  obtain ⟨source, hgiven⟩ := hexists hargs
  exact ⟨hw, hd, rfl, hargs, hdir, hpath, hsame, hagain, source, hgiven, hsource.trans hgiven⟩

end Specimen
