import Specimen.Proofs.Behaviour
import Specimen.Proofs.WellFormed

/-!
# The machine of a product is an odometer

An enumerator's machine is **at** a listing when that is what it has left
to give (`Enumerator.At`). This is told from the memory alone: for a
range from the counter, for a list from the position, and for a product
from the current tuple and from what the machines of its fields are at.

The machine of a product turns the machines of its fields like the
wheels of an odometer. It is described from the right: the wheels from
some field on have tuples of their own, and a turn of these wheels
(`runAll_turns`) gives the next of those, or else moves none of the
wheels before. What is proved about a turn leaves the other wheels
open, so the wheel to the left can be put before.

A machine **plays** its enumerator when `reset` puts it at the whole
listing and `next` goes on by one element, whatever is drawn for it
(`Enumerator.Plays`). That all machines of well-formed enumerators do is
`Enumerator.WellFormed.plays`.
-/

namespace Specimen

open Machine Listing

/-! ## What is left to give -/

mutual

/-- **A machine is at a listing**: that is what it has left to give. -/
def Enumerator.At : Enumerator → Memory → Listing Value → Prop
  | .range r, m, l => r.start.toInt ≤ m.own.counter ∧ m.own.counter ≤ r.stop.toInt ∧
    l = .ofList (r.valuesFrom m.own.counter)
  | .values v, m, l => l = .ofList (v.items.drop m.own.position)
  | .product p parts, m, l => ∃ rests, enumeratorsAt 0 parts m rests ∧
    ((m.own.flag "finished" = true ∧ l = .nil) ∨
      (m.own.flag "finished" = false ∧ m.own.flag "started" = false ∧
        rests = enumeratorsListings parts ∧ l = (tuples rests).map .tuple) ∨
      (m.own.flag "finished" = false ∧ m.own.flag "started" = true ∧
        l = (tuplesAfter (enumeratorsListings parts) (p.names.map m.own.current) rests).map
          .tuple))
  | .once g, m, l => l = if m.own.flag "done" then .nil else .draw g fun v => .cons v .nil

/-- The machines of fields are at listings, the first of them having a
given index. -/
def enumeratorsAt : Nat → List Enumerator → Memory → List (Listing Value) → Prop
  | _, [], _, rests => rests = []
  | k, e :: es, m, rests => ∃ l ls, rests = l :: ls ∧ e.At (m.part k) l ∧
    enumeratorsAt (k + 1) es m ls

end

/-- Only the machines from an index on matter. -/
theorem enumeratorsAt_congr {k : Nat} {es : List Enumerator} {m m' : Memory}
    {rests : List (Listing Value)} (hparts : ∀ i, k ≤ i → m'.part i = m.part i)
    (h : enumeratorsAt k es m rests) : enumeratorsAt k es m' rests := by
  induction es generalizing k rests with
  | nil => exact h
  | cons e es ih =>
    obtain ⟨l, ls, rfl, he, hes⟩ := h
    exact ⟨l, ls, rfl, by rwa [hparts k (Nat.le_refl k)],
      ih (fun i hi => hparts i (Nat.le_of_succ_le hi)) hes⟩

section

variable {ω : Type} (source : Source ω)

/-- **A machine plays its enumerator**: it starts with the whole listing,
and gives it one by one. -/
structure Enumerator.Plays (e : Enumerator) : Prop where
  /-- After `reset` all is left to give. -/
  reset : ∀ m w, ∃ m', (e.behaviour source).reset m w = (m', w) ∧ e.At m' e.listing
  /-- When nothing is left `next` returns false. -/
  next_none : ∀ {m l w w'}, e.At m l → l.next? source w = (none, w') →
    ∃ m', (e.behaviour source).next m w = ⟨false, none, m', w'⟩ ∧ e.At m' .nil
  /-- Otherwise `next` gives the next element. -/
  next_some : ∀ {m l w v rest w'}, e.At m l → l.next? source w = (some (v, rest), w') →
    ∃ m', (e.behaviour source).next m w = ⟨true, some v, m', w'⟩ ∧ e.At m' rest

end

/-! ## Machines without parts -/

section

variable {ω : Type} {source : Source ω}

/-- The machine of a range counts. -/
theorem Enumerator.plays_range {r : Range} (h : r.start < r.stop) :
    (Enumerator.range r).Plays source where
  reset m w := by
    have hlt : r.start.toInt < r.stop.toInt := Int32.lt_iff_toInt_lt.mp h
    exact ⟨_, rfl, Int.le_refl _, Int.le_of_lt hlt, rfl⟩
  next_none {m l w w'} hat hnext := by
    obtain ⟨hstart, hstop, rfl⟩ := hat
    by_cases hlt : m.own.counter < r.stop.toInt
    · rw [Range.valuesFrom_of_lt hlt] at hnext
      cases hnext
    · have hle := Int.not_lt.mp hlt
      rw [Range.valuesFrom_of_le hle] at hnext
      cases hnext
      refine ⟨m, next_of_runAll (runAll_enter ?_ rfl _), hstart, hstop, ?_⟩
      · exact Prod.ext (decide_eq_true hle) rfl
      · rw [Range.valuesFrom_of_le hle]
        rfl
  next_some {m l w v rest w'} hat hnext := by
    obtain ⟨hstart, hstop, rfl⟩ := hat
    by_cases hlt : m.own.counter < r.stop.toInt
    · rw [Range.valuesFrom_of_lt hlt] at hnext
      cases hnext
      refine ⟨m.setOwn { m.own with counter := m.own.counter + 1 },
        next_of_runAll ((runAll_pass (t := ⟨m, none, w⟩) ?_ _ _).trans rfl), ?_, hlt, rfl⟩
      · exact Prod.ext (decide_eq_false (Int.not_le.mpr hlt)) rfl
      · exact Int.le_of_lt (Int.lt_add_one_of_le hstart)
    · rw [Range.valuesFrom_of_le (Int.not_lt.mp hlt)] at hnext
      cases hnext

/-- The machine of a list keeps its position. -/
theorem Enumerator.plays_values (v : Values) : (Enumerator.values v).Plays source where
  reset m w := ⟨_, rfl, rfl⟩
  next_none {m l w w'} hat hnext := by
    cases hat
    cases hitems : v.items.drop m.own.position with
    | nil =>
      rw [hitems] at hnext
      cases hnext
      refine ⟨m, next_of_runAll (runAll_enter ?_ rfl _), congrArg ofList hitems.symm⟩
      exact Prod.ext (decide_eq_true (List.drop_eq_nil_iff.mp hitems)) rfl
    | cons =>
      rw [hitems] at hnext
      cases hnext
  next_some {m l w x rest w'} hat hnext := by
    cases hat
    cases hitems : v.items.drop m.own.position with
    | nil =>
      rw [hitems] at hnext
      cases hnext
    | cons y ys =>
      rw [hitems] at hnext
      cases hnext
      have hlt : m.own.position < v.items.length := by
        rw [← not_le, ← List.drop_eq_nil_iff, hitems]
        exact List.cons_ne_nil _ _
      obtain ⟨hitem, hrest⟩ :=
        List.cons_eq_cons.mp ((List.drop_eq_getElem_cons hlt).symm.trans hitems)
      refine ⟨m.setOwn { m.own with position := m.own.position + 1 },
        next_of_runAll ((runAll_pass (t := ⟨m, none, w⟩) ?_ _ _).trans ?_),
        congrArg ofList hrest.symm⟩
      · exact Prod.ext (decide_eq_false (Nat.not_le.mpr hlt)) rfl
      · show (some true, Scene.mk _ v.items[m.own.position]? w) = _
        rw [List.getElem?_eq_getElem hlt, hitem]

/-- The machine of a single value remembers that it was given. -/
theorem Enumerator.plays_once (g : Generator) : (Enumerator.once g).Plays source where
  reset m w := ⟨_, rfl, (if_neg (Bool.eq_false_iff.mp (Memory.flag_setFlag_self ..))).symm⟩
  next_none {m l w w'} hat hnext := by
    cases hat
    cases hdone : m.own.flag "done" with
    | true =>
      rw [hdone] at hnext
      cases hnext
      refine ⟨m, next_of_runAll (runAll_enter ?_ rfl _), (if_pos hdone).symm⟩
      exact Prod.ext hdone rfl
    | false =>
      rw [hdone] at hnext
      cases hnext
  next_some {m l w x rest w'} hat hnext := by
    cases hat
    cases hdone : m.own.flag "done" with
    | true =>
      rw [hdone] at hnext
      cases hnext
    | false =>
      rw [hdone] at hnext
      cases hnext
      refine ⟨m.setFlag "done" true,
        next_of_runAll ((runAll_pass (t := ⟨m, none, w⟩) ?_ _ _).trans rfl),
        (if_pos (Memory.flag_setFlag_self ..)).symm⟩
      exact Prod.ext hdone rfl

/-! ## One wheel -/

variable {c : Fittings ω} {e : Enumerator} {k : Nat} {f : String} {m m' : Memory}
  {o : Option Value} {l rest : Listing Value} {v : Value} {w w' : ω}

theorem test_fieldSteps {s : Scene ω} :
    (Condition.fieldSteps k f).test c s = stepPart c k f s := rfl

/-- A wheel that has no value left. -/
theorem stepPart_of_none (he : e.Plays source) (hpart : c.parts[k]? = some (e.behaviour source))
    (hat : e.At (m.part k) l) (hnext : l.next? source w = (none, w')) :
    ∃ p, stepPart c k f ⟨m, o, w⟩ = (false, ⟨m.setPart k p, o, w'⟩) ∧ e.At p .nil := by
  obtain ⟨p, hreply, hp⟩ := he.next_none hat hnext
  refine ⟨p, ?_, hp⟩
  simp only [stepPart, hpart, hreply]
  rfl

/-- A wheel that gives its next value. -/
theorem stepPart_of_some (he : e.Plays source) (hpart : c.parts[k]? = some (e.behaviour source))
    (hat : e.At (m.part k) l) (hnext : l.next? source w = (some (v, rest), w')) :
    ∃ p, stepPart c k f ⟨m, o, w⟩
      = (true, ⟨(m.setPart k p).setCurrent f v, o, w'⟩) ∧ e.At p rest := by
  obtain ⟨p, hreply, hp⟩ := he.next_some hat hnext
  refine ⟨p, ?_, hp⟩
  simp only [stepPart, hpart, hreply]
  rfl

theorem run_resetField (he : e.Plays source) (hpart : c.parts[k]? = some (e.behaviour source)) :
    ∃ p, (Statement.resetField k).run source c ⟨m, o, w⟩ = (none, ⟨m.setPart k p, o, w⟩) ∧
      e.At p e.listing := by
  obtain ⟨p, hreset, hp⟩ := he.reset (m.part k) w
  refine ⟨p, ?_, hp⟩
  simp only [Statement.run, hpart, hreset]

/-! ## The wheels from some field on -/

/-- **Only wheels from some field on are moved**: the machines of fields
before, the flags, and the other fields of the current tuple are as they
were. -/
structure Memory.Turned (k : Nat) (fields : List String) (m m' : Memory) : Prop where
  /-- Machines of fields before are not touched. -/
  part : ∀ i < k, m'.part i = m.part i
  /-- No flag is set. -/
  flag : m'.own.flag = m.own.flag
  /-- Other fields keep their values. -/
  current : ∀ f, f ∉ fields → m'.own.current f = m.own.current f

namespace Memory.Turned

variable {fields : List String} {m'' : Memory}

theorem refl (k : Nat) (fields : List String) (m : Memory) : Turned k fields m m :=
  ⟨fun _ _ => rfl, rfl, fun _ _ => rfl⟩

theorem trans (h : Turned k fields m m') (h' : Turned k fields m' m'') : Turned k fields m m'' :=
  ⟨fun i hi => (h'.part i hi).trans (h.part i hi), h'.flag.trans h.flag,
    fun f hf => (h'.current f hf).trans (h.current f hf)⟩

/-- Wheels further to the right are among those from a field on. -/
theorem of_later (h : Turned (k + 1) fields m m') : Turned k (f :: fields) m m' :=
  ⟨fun i hi => h.part i (Nat.lt_succ_of_lt hi), h.flag,
    fun f hf => h.current f fun hmem => hf (List.mem_cons_of_mem _ hmem)⟩

theorem setPart (k : Nat) (fields : List String) (m p : Memory) :
    Turned k fields m (m.setPart k p) :=
  ⟨fun _ hi => Memory.part_setPart_of_ne m p (Nat.ne_of_lt hi), rfl, fun _ _ => rfl⟩

theorem setCurrent (k : Nat) (fields : List String) (m p : Memory) (v : Value) :
    Turned k (f :: fields) m ((m.setPart k p).setCurrent f v) :=
  ⟨fun _ hi => Memory.part_setPart_of_ne m p (Nat.ne_of_lt hi), rfl,
    fun _ hf => Memory.current_setCurrent_of_ne _ (List.ne_of_not_mem_cons hf) v⟩

end Memory.Turned

/-- What machines of fields are among those of a struct: these are the
ones from an index on. -/
theorem parts_of_drop {es : List Enumerator}
    (h : c.parts.drop k = enumeratorsBehaviours source (e :: es)) :
    c.parts[k]? = some (e.behaviour source) ∧
      c.parts.drop (k + 1) = enumeratorsBehaviours source es := by
  constructor
  · rw [← List.head?_drop, h]
    rfl
  · rw [← List.tail_drop, h]
    rfl

/-- **Each wheel is put at its first value**, and started again before
that or not. -/
def starts (again : Bool) (fields : List (String × Nat)) : List Statement :=
  fields.flatMap fun f =>
    (if again then [.resetField f.2] else []) ++ [.when (.fieldStuck f.2 f.1) finish]

theorem firstValues_eq (fields : List (String × Nat)) : firstValues fields = starts false fields :=
  List.flatMap_pure_eq_map .. |>.symm

theorem restart_eq (fields : List (String × Nat)) : restart fields = starts true fields := rfl

/-- **Putting wheels at their first values** gives the first tuple. The
statements are those for the wheels from a field on, with any behind them
in the machine, and the induction is on the wheels; what the wheels in
front are at is not touched. -/
theorem runAll_starts (again : Bool) {es : List Enumerator} (hplays : ∀ e ∈ es, e.Plays source)
    (hfull : ∀ e ∈ es, e.listing.Nonempty) {fields : List String}
    (hlength : fields.length = es.length) (hdistinct : fields.Nodup)
    (hparts : c.parts.drop k = enumeratorsBehaviours source es)
    (hat : again = false → enumeratorsAt k es m (enumeratorsListings es)) :
    ∃ m' rests w',
      runAll source c (starts again (fields.zipIdx k)) ⟨m, o, w⟩ = (none, ⟨m', o, w'⟩) ∧
      enumeratorsAt k es m' rests ∧ m.Turned k fields m' ∧
      (tuples (enumeratorsListings es)).next? source w = (some (fields.map m'.own.current,
        tuplesAfter (enumeratorsListings es) (fields.map m'.own.current) rests), w') := by
  induction es generalizing k fields m w with
  | nil =>
    cases List.eq_nil_of_length_eq_zero hlength
    exact ⟨m, [], w, rfl, rfl, .refl _ _ _, rfl⟩
  | cons e es ih =>
    obtain ⟨f, fields, rfl⟩ := List.exists_cons_of_length_eq_add_one hlength
    obtain ⟨hpart, hlater⟩ := parts_of_drop hparts
    obtain ⟨he, hes⟩ := List.forall_mem_cons.mp hplays
    obtain ⟨hne, hfulls⟩ := List.forall_mem_cons.mp hfull
    obtain ⟨hf, hfields⟩ := List.nodup_cons.mp hdistinct
    -- the first wheel is ready, and those behind it are if nothing is started again
    obtain ⟨m₀, hready, hat₀, hturned₀, hbehind⟩ : ∃ m₀,
        runAll source c (if again then [.resetField k] else []) ⟨m, o, w⟩
          = (none, ⟨m₀, o, w⟩) ∧ e.At (m₀.part k) e.listing ∧ m.Turned k (f :: fields) m₀ ∧
        (again = false → m₀ = m) := by
      cases again with
      | false =>
        obtain ⟨l, ls, hls, hl, -⟩ := hat rfl
        obtain ⟨rfl, -⟩ := List.cons_eq_cons.mp hls
        exact ⟨m, rfl, hl, .refl _ _ _, fun _ => rfl⟩
      | true =>
        obtain ⟨p, hrun, hp⟩ := run_resetField (m := m) (o := o) (w := w) he hpart
        refine ⟨m.setPart k p, ?_, ?_, .setPart _ _ _ _, nofun⟩
        · rw [if_pos rfl, runAll, hrun]
          rfl
        · rwa [Memory.part_setPart_self]
    obtain ⟨v, rest, w₁, hnext⟩ := hne.exists_next? source w
    obtain ⟨p, hstep, hp⟩ := stepPart_of_some (f := f) (o := o) he hpart hat₀ hnext
    have hturned₁ := hturned₀.trans (.setCurrent k fields m₀ p v)
    obtain ⟨m', rests, w', hrun, hrests, hturned, htuples⟩ :=
      ih (m := (m₀.setPart k p).setCurrent f v) (w := w₁) hes hfulls
        (Nat.succ.inj hlength) hfields hlater fun hagain => by
          obtain ⟨l, ls, hls, -, hbehind'⟩ := hat hagain
          obtain ⟨-, rfl⟩ := List.cons_eq_cons.mp hls
          rw [hbehind hagain]
          exact enumeratorsAt_congr (fun i hi => Memory.part_setPart_of_ne _ _
            (Nat.ne_of_gt hi)) hbehind'
    have hv : m'.own.current f = v := (hturned.current f hf).trans
      (Memory.current_setCurrent_self _ _ _)
    refine ⟨m', rest :: rests, w', ?_, ⟨rest, rests, rfl, ?_, hrests⟩,
      hturned₁.trans hturned.of_later, ?_⟩
    · rw [List.zipIdx_cons, starts, List.flatMap_cons, List.append_assoc,
        runAll_append_of_none hready]
      refine (runAll_pass ?_ _ _).trans hrun
      show (!(stepPart c k f _).1, (stepPart c k f _).2) = _
      rw [hstep]
      rfl
    · rw [hturned.part k (Nat.lt_succ_self k)]
      show e.At ((m₀.setPart k p).part k) rest
      rwa [Memory.part_setPart_self]
    · rw [List.map_cons, hv]
      exact next?_bind_tuples hnext htuples

/-- **A turn of the wheels** gives the next tuple, or none when the tuples
of these wheels have come to an end. By induction on the wheels from the
left: the wheels further to the right are turned first, and only when they
have come to an end does the leftmost move, which starts all others again.
-/
theorem runAll_turns {es : List Enumerator} (hplays : ∀ e ∈ es, e.Plays source)
    (hfull : ∀ e ∈ es, e.listing.Nonempty) {fields : List String}
    (hlength : fields.length = es.length) (hdistinct : fields.Nodup)
    (hparts : c.parts.drop k = enumeratorsBehaviours source es) {rests : List (Listing Value)}
    (hat : enumeratorsAt k es m rests) :
    ∃ m' rests' w', enumeratorsAt k es m' rests' ∧ m.Turned k fields m' ∧
      ((runAll source c (turns (fields.zipIdx k)) ⟨m, o, w⟩ = (none, ⟨m', o, w'⟩) ∧
          (tuplesAfter (enumeratorsListings es) (fields.map m.own.current) rests).next? source w
            = (none, w')) ∨
        (runAll source c (turns (fields.zipIdx k)) ⟨m, o, w⟩
            = (some true, ⟨m', some (.tuple (c.fields.map m'.own.current)), w'⟩) ∧
          (tuplesAfter (enumeratorsListings es) (fields.map m.own.current) rests).next? source w
            = (some (fields.map m'.own.current,
                tuplesAfter (enumeratorsListings es) (fields.map m'.own.current) rests'), w'))) := by
  induction es generalizing k fields m rests w with
  | nil =>
    cases List.eq_nil_of_length_eq_zero hlength
    exact ⟨m, rests, w, hat, .refl _ _ _, .inl ⟨rfl, rfl⟩⟩
  | cons e es ih =>
    obtain ⟨f, fields, rfl⟩ := List.exists_cons_of_length_eq_add_one hlength
    obtain ⟨hpart, hlater⟩ := parts_of_drop hparts
    obtain ⟨he, hes⟩ := List.forall_mem_cons.mp hplays
    obtain ⟨-, hfulls⟩ := List.forall_mem_cons.mp hfull
    obtain ⟨hf, hfields⟩ := List.nodup_cons.mp hdistinct
    obtain ⟨l, ls, rfl, hl, hls⟩ := hat
    obtain ⟨m₁, ls₁, w₁, hat₁, hturned₁, hturn⟩ :=
      ih (w := w) hes hfulls (Nat.succ.inj hlength) hfields hlater hls
    have hl₁ : e.At (m₁.part k) l := by rwa [hturned₁.part k (Nat.lt_succ_self k)]
    rcases hturn with ⟨hrun, hnone⟩ | ⟨hrun, hsome⟩
    · -- the wheels to the right have come to an end, so it is this wheel's turn
      have hbehind := next?_append_of_none
        (m := l.bind fun a => (tuples (enumeratorsListings es)).map (a :: ·))
        (next?_map_of_none (f := (m.own.current f :: ·)) hnone)
      rcases hnext : l.next? source w₁ with ⟨_ | ⟨v, rest⟩, w₂⟩
      · obtain ⟨p, hstep, hp⟩ := stepPart_of_none (f := f) (o := o) he hpart hl₁ hnext
        refine ⟨m₁.setPart k p, .nil :: ls₁, w₂, ⟨.nil, ls₁, rfl, ?_, ?_⟩,
          hturned₁.of_later.trans (.setPart _ _ _ _), .inl ⟨?_, ?_⟩⟩
        · rwa [Memory.part_setPart_self]
        · exact enumeratorsAt_congr
            (fun i hi => Memory.part_setPart_of_ne _ _ (Nat.ne_of_gt hi)) hat₁
        · rw [List.zipIdx_cons, turns, runAll_append_of_none hrun]
          exact runAll_pass (test_fieldSteps.trans hstep) _ _
        · exact hbehind.trans (next?_bind_of_none hnext)
      · obtain ⟨p, hstep, hp⟩ := stepPart_of_some (f := f) (o := o) he hpart hl₁ hnext
        obtain ⟨m', rests, w', hstarts, hrests, hturned, htuples⟩ :=
          runAll_starts true (m := (m₁.setPart k p).setCurrent f v) (o := o) (w := w₂)
            hes hfulls (Nat.succ.inj hlength) hfields hlater nofun
        have hv : m'.own.current f = v := (hturned.current f hf).trans
          (Memory.current_setCurrent_self _ _ _)
        refine ⟨m', rest :: rests, w', ⟨rest, rests, rfl, ?_, hrests⟩,
          (hturned₁.of_later.trans (.setCurrent _ _ _ _ _)).trans hturned.of_later,
          .inr ⟨?_, ?_⟩⟩
        · rw [hturned.part k (Nat.lt_succ_self k)]
          show e.At ((m₁.setPart k p).part k) rest
          rwa [Memory.part_setPart_self]
        · rw [List.zipIdx_cons, turns, runAll_append_of_none hrun]
          refine runAll_enter (test_fieldSteps.trans hstep) ?_ _
          rw [restart_eq, runAll_append_of_none hstarts]
          rfl
        · rw [List.map_cons, List.map_cons, hv]
          exact hbehind.trans (next?_bind_tuples hnext htuples)
    · -- the wheels to the right have another tuple
      have hv : m₁.own.current f = m.own.current f := hturned₁.current f hf
      refine ⟨m₁, l :: ls₁, w₁, ⟨l, ls₁, rfl, hl₁, hat₁⟩, hturned₁.of_later, .inr ⟨?_, ?_⟩⟩
      · rw [List.zipIdx_cons, turns]
        exact runAll_append_of_some hrun _
      · rw [List.map_cons, List.map_cons, hv]
        exact next?_append_of_some (next?_map_of_some hsome)

/-! ## The machine of a product -/

/-- **Starting all wheels again** leaves them with all to give. -/
theorem runAll_resets {es : List Enumerator} (hplays : ∀ e ∈ es, e.Plays source)
    (hparts : c.parts.drop k = enumeratorsBehaviours source es) :
    ∃ m', runAll source c ((List.range' k es.length).map .resetField) ⟨m, o, w⟩
        = (none, ⟨m', o, w⟩) ∧
      enumeratorsAt k es m' (enumeratorsListings es) ∧ ∀ i < k, m'.part i = m.part i := by
  induction es generalizing k m with
  | nil => exact ⟨m, rfl, rfl, fun _ _ => rfl⟩
  | cons e es ih =>
    obtain ⟨hpart, hlater⟩ := parts_of_drop hparts
    obtain ⟨he, hes⟩ := List.forall_mem_cons.mp hplays
    obtain ⟨p, hreset, hp⟩ := run_resetField (m := m) (o := o) (w := w) he hpart
    obtain ⟨m', hrun, hat, hbefore⟩ := ih (m := m.setPart k p) hes hlater
    refine ⟨m', ?_, ⟨_, _, rfl, ?_, hat⟩, fun i hi => ?_⟩
    · rw [List.length_cons, List.range'_succ, List.map_cons, runAll, hreset]
      exact hrun
    · rw [hbefore k (Nat.lt_succ_self k), Memory.part_setPart_self]
      exact hp
    · rw [hbefore i (Nat.lt_succ_of_lt hi), Memory.part_setPart_of_ne _ _ (Nat.ne_of_lt hi)]

theorem enumeratorsAt_setFlag {es : List Enumerator} {rests : List (Listing Value)}
    (h : enumeratorsAt k es m rests) (name : String) (value : Bool) :
    enumeratorsAt k es (m.setFlag name value) rests :=
  enumeratorsAt_congr (m := m) (fun _ _ => rfl) h

section

variable {p : Product} {parts : List Enumerator}

theorem next_of_finished (hfinished : m.own.flag "finished" = true) :
    ((Enumerator.product p parts).behaviour source).next m w = ⟨false, none, m, w⟩ :=
  next_of_runAll (runAll_enter (test_flag hfinished) rfl _)

/-- The first call gives the first tuple. -/
theorem next_of_not_started (hplays : ∀ e ∈ parts, e.Plays source)
    (hfull : ∀ e ∈ parts, e.listing.Nonempty) (hlength : p.names.length = parts.length)
    (hdistinct : p.names.Nodup) (hfinished : m.own.flag "finished" = false)
    (hstarted : m.own.flag "started" = false)
    (hat : enumeratorsAt 0 parts m (enumeratorsListings parts)) :
    ∃ m' rests w',
      ((Enumerator.product p parts).behaviour source).next m w
        = ⟨true, some (.tuple (p.names.map m'.own.current)), m', w'⟩ ∧
      enumeratorsAt 0 parts m' rests ∧ m'.own.flag "finished" = false ∧
      m'.own.flag "started" = true ∧
      (tuples (enumeratorsListings parts)).next? source w = (some (p.names.map m'.own.current,
        tuplesAfter (enumeratorsListings parts) (p.names.map m'.own.current) rests), w') := by
  obtain ⟨m', rests, w', hstarts, hrests, hturned, hnext⟩ :=
    runAll_starts (c := ⟨[], none, p.names, enumeratorsBehaviours source parts⟩)
      (m := m.setFlag "started" true) (o := none) (w := w) false hplays hfull hlength hdistinct
      rfl fun _ => enumeratorsAt_setFlag hat _ _
  refine ⟨m', rests, w', ?_, hrests, ?_, ?_, hnext⟩
  · refine next_of_runAll ((runAll_pass (test_flag hfinished) _ _).trans
      (runAll_enter (test_notFlag hstarted) ?_ _))
    · rw [List.append_assoc, List.singleton_append, runAll]
      show runAll _ _ (firstValues _ ++ _) ⟨m.setFlag "started" true, none, w⟩ = _
      rw [firstValues_eq, runAll_append_of_none hstarts]
      rfl
  · rw [hturned.flag, Memory.flag_setFlag_of_ne _ (by decide), hfinished]
  · rw [hturned.flag, Memory.flag_setFlag_self]

/-- Later calls turn the wheels, until they have come to an end. -/
theorem next_of_started {rests : List (Listing Value)} (hplays : ∀ e ∈ parts, e.Plays source)
    (hfull : ∀ e ∈ parts, e.listing.Nonempty) (hlength : p.names.length = parts.length)
    (hdistinct : p.names.Nodup) (hfinished : m.own.flag "finished" = false)
    (hstarted : m.own.flag "started" = true) (hat : enumeratorsAt 0 parts m rests) :
    ∃ m' rests' w', enumeratorsAt 0 parts m' rests' ∧
      ((m'.own.flag "finished" = true ∧
          ((Enumerator.product p parts).behaviour source).next m w = ⟨false, none, m', w'⟩ ∧
          (tuplesAfter (enumeratorsListings parts) (p.names.map m.own.current) rests).next?
            source w = (none, w')) ∨
        (m'.own.flag "finished" = false ∧ m'.own.flag "started" = true ∧
          ((Enumerator.product p parts).behaviour source).next m w
            = ⟨true, some (.tuple (p.names.map m'.own.current)), m', w'⟩ ∧
          (tuplesAfter (enumeratorsListings parts) (p.names.map m.own.current) rests).next?
            source w = (some (p.names.map m'.own.current,
              tuplesAfter (enumeratorsListings parts) (p.names.map m'.own.current) rests'),
              w'))) := by
  obtain ⟨m', rests', w', hrests, hturned, hturn⟩ :=
    runAll_turns (c := ⟨[], none, p.names, enumeratorsBehaviours source parts⟩)
      (o := none) (w := w) hplays hfull hlength hdistinct rfl hat
  -- both guards are passed, and the turns come next
  have hguards : ∀ rest, runAll source
      ⟨[], none, p.names, enumeratorsBehaviours source parts⟩
      ([.when (.flag "finished") [.return false],
        .when (.notFlag "started")
          ([.setFlag "started" true] ++ firstValues p.names.zipIdx ++ give)] ++ rest)
      ⟨m, none, w⟩
        = runAll source ⟨[], none, p.names, enumeratorsBehaviours source parts⟩ rest
          ⟨m, none, w⟩ := by
    intro rest
    exact (runAll_pass (test_flag hfinished) _ _).trans (runAll_pass (test_notFlag hstarted) _ _)
  have hnext : (Enumerator.product p parts).machine.next
      = [.when (.flag "finished") [.return false],
        .when (.notFlag "started")
          ([.setFlag "started" true] ++ firstValues p.names.zipIdx ++ give)]
        ++ (turns p.names.zipIdx ++ finish) := List.append_assoc ..
  rcases hturn with ⟨hrun, hnone⟩ | ⟨hrun, hsome⟩
  · refine ⟨m'.setFlag "finished" true, rests', w', enumeratorsAt_setFlag hrests _ _,
      .inl ⟨Memory.flag_setFlag_self .., next_of_runAll ?_, hnone⟩⟩
    rw [hnext, hguards, runAll_append_of_none hrun]
    rfl
  · refine ⟨m', rests', w', hrests, .inr ⟨?_, ?_, next_of_runAll ?_, hsome⟩⟩
    · rw [hturned.flag, hfinished]
    · rw [hturned.flag, hstarted]
    · rw [hnext, hguards, runAll_append_of_some hrun]

/-- **The machine of a product turns its wheels** through all tuples.
Before the first call of `next` they have all to give, and then the rest
of the tuples is told by where each of them is. -/
theorem Enumerator.plays_product (hplays : ∀ e ∈ parts, e.Plays source)
    (hfull : ∀ e ∈ parts, e.listing.Nonempty) (hlength : p.names.length = parts.length)
    (hdistinct : p.names.Nodup) : (Enumerator.product p parts).Plays source where
  reset m w := by
    obtain ⟨m', hrun, hat, -⟩ :=
      runAll_resets (c := ⟨[], none, p.names, enumeratorsBehaviours source parts⟩) (k := 0)
        (m := m) (o := none) (w := w) hplays rfl
    refine ⟨(m'.setFlag "started" false).setFlag "finished" false, ?_, enumeratorsListings parts,
      enumeratorsAt_setFlag (enumeratorsAt_setFlag hat _ _) _ _, .inr (.inl ⟨?_, ?_, rfl, rfl⟩)⟩
    · rw [← List.range_eq_range'] at hrun
      exact reset_of_runAll ((runAll_append_of_none hrun _).trans rfl)
    · exact Memory.flag_setFlag_self ..
    · rw [Memory.flag_setFlag_of_ne _ (by decide), Memory.flag_setFlag_self]
  next_none {m l w w'} hat hnext := by
    obtain ⟨rests, hrests, ⟨hfinished, rfl⟩ | ⟨hfinished, hstarted, rfl, rfl⟩ |
      ⟨hfinished, hstarted, rfl⟩⟩ := hat
    · cases hnext
      exact ⟨m, next_of_finished hfinished, rests, hrests, .inl ⟨hfinished, rfl⟩⟩
    · obtain ⟨m', rests', w'', -, -, -, -, hsome⟩ := next_of_not_started (w := w) hplays hfull
        hlength hdistinct hfinished hstarted hrests
      cases (next?_map_of_some hsome).symm.trans hnext
    · obtain ⟨m', rests', w'', hrests', ⟨hfinished', hreply, hnone⟩ | ⟨-, -, -, hsome⟩⟩ :=
        next_of_started (w := w) hplays hfull hlength hdistinct hfinished hstarted hrests
      · cases (next?_map_of_none hnone).symm.trans hnext
        exact ⟨m', hreply, rests', hrests', .inl ⟨hfinished', rfl⟩⟩
      · cases (next?_map_of_some hsome).symm.trans hnext
  next_some {m l w v rest w'} hat hnext := by
    obtain ⟨rests, hrests, ⟨hfinished, rfl⟩ | ⟨hfinished, hstarted, rfl, rfl⟩ |
      ⟨hfinished, hstarted, rfl⟩⟩ := hat
    · cases hnext
    · obtain ⟨m', rests', w'', hreply, hrests', hfinished', hstarted', hsome⟩ :=
        next_of_not_started (w := w) hplays hfull hlength hdistinct hfinished hstarted hrests
      cases (next?_map_of_some hsome).symm.trans hnext
      exact ⟨m', hreply, rests', hrests', .inr (.inr ⟨hfinished', hstarted', rfl⟩)⟩
    · obtain ⟨m', rests', w'', hrests', ⟨-, -, hnone⟩ | ⟨hfinished', hstarted', hreply, hsome⟩⟩ :=
        next_of_started (w := w) hplays hfull hlength hdistinct hfinished hstarted hrests
      · cases (next?_map_of_none hnone).symm.trans hnext
      · cases (next?_map_of_some hsome).symm.trans hnext
        exact ⟨m', hreply, rests', hrests', .inr (.inr ⟨hfinished', hstarted', rfl⟩)⟩

end

/-! ## Well-formed enumerators -/

theorem enumeratorsListings_eq (es : List Enumerator) :
    enumeratorsListings es = es.map Enumerator.listing := by
  induction es with
  | nil => rfl
  | cons e es ih => rw [enumeratorsListings, ih, List.map_cons]

/-- **A well-formed enumerator has something to give.** -/
theorem Enumerator.WellFormed.nonempty_listing {e : Enumerator} (he : e.WellFormed) :
    e.listing.Nonempty := by
  cases he with
  | @range r hr =>
    refine nonempty_ofList ?_
    rw [Range.values, Range.valuesFrom_of_lt (Int32.lt_iff_toInt_lt.mp hr)]
    exact List.cons_ne_nil _ _
  | values hv =>
    obtain ⟨-, hitems, -⟩ := hv
    exact nonempty_ofList hitems
  | product hp hparts fit =>
    refine (nonempty_tuples fun l hl => ?_).map _
    rw [enumeratorsListings_eq] at hl
    obtain ⟨part, hpart, rfl⟩ := List.mem_map.mp hl
    exact (hparts part hpart).nonempty_listing
  | once hg => exact fun _ => trivial

/-- **The machine of a well-formed enumerator plays it.** By induction on
the enumerator: the machine of a product turns those of its fields, and
all it needs is that these play theirs. -/
theorem Enumerator.WellFormed.plays {e : Enumerator} (he : e.WellFormed) : e.Plays source := by
  cases he with
  | range hr => exact plays_range hr
  | values hv => exact plays_values _
  | product hp hparts fit =>
    obtain ⟨-, -, hdistinct⟩ := hp
    refine plays_product (fun part hpart => (hparts part hpart).plays)
      (fun part hpart => (hparts part hpart).nonempty_listing) ?_ hdistinct
    have hlength := congrArg List.length fit
    rw [List.length_map, List.length_map] at hlength
    rw [Product.names, List.length_map, hlength]
  | once hg => exact plays_once _

end

end Specimen
