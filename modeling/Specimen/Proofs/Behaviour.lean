import Mathlib.Logic.Function.Basic
import Specimen.Program.Emission
import Specimen.Proofs.Listing

/-!
# What machines do

The machines of enumerators are written into a program as two bodies of
statements, which `Program/Machine` has as data. Here they are given
their ordinary meaning: a statement reads and writes the members of its
struct, a condition may step the machine of a field, and a body ends
where it returns.

A machine's **memory** has its own members, and those of the machines in
it, which are found by the way that leads to them. So a machine can be
given any memory whatsoever, and what it does before its first `reset`
is defined as well.

What calling a member does is a **behaviour** (`Machine.behaviour`). The
machine of a product calls members of the machines of its fields, whose
behaviours it is given, so the behaviour of an enumerator is put
together along its parts (`Enumerator.behaviour`).
-/

namespace Specimen

open Machine

/-! ## Memory -/

/-- **The members of a struct**, but for those that are structs
themselves. -/
structure Members where
  /-- The counter, for which there is no end. -/
  counter : Int
  /-- The position in a list. -/
  position : Nat
  /-- The flags. -/
  flag : String → Bool
  /-- The fields of the current tuple. -/
  current : String → Value

/-- **The memory of a machine**: its members, and those of the machines
in it. -/
abbrev Memory := List Nat → Members

namespace Memory

/-- The members of the machine itself. -/
def own (m : Memory) : Members := m []

/-- The memory of a machine in it. -/
def part (m : Memory) (i : Nat) : Memory := fun way => m (i :: way)

/-- Other members for the machine itself. -/
def setOwn (m : Memory) (o : Members) : Memory
  | [] => o
  | i :: way => m (i :: way)

/-- Another memory for a machine in it. -/
def setPart (m : Memory) (i : Nat) (p : Memory) : Memory
  | [] => m []
  | j :: way => if j = i then p way else m (j :: way)

variable (m p : Memory) (o : Members) (i : Nat)

@[simp] theorem own_setOwn : (m.setOwn o).own = o := rfl

@[simp] theorem part_setOwn : (m.setOwn o).part i = m.part i := rfl

@[simp] theorem own_setPart : (m.setPart i p).own = m.own := rfl

@[simp] theorem part_setPart_self : (m.setPart i p).part i = p :=
  funext fun _ => if_pos rfl

theorem part_setPart_of_ne {i j : Nat} (h : j ≠ i) : (m.setPart i p).part j = m.part j :=
  funext fun _ => if_neg h

/-- Sets a flag. -/
def setFlag (m : Memory) (name : String) (value : Bool) : Memory :=
  m.setOwn { m.own with flag := Function.update m.own.flag name value }

/-- Sets a field of the current tuple. -/
def setCurrent (m : Memory) (field : String) (v : Value) : Memory :=
  m.setOwn { m.own with current := Function.update m.own.current field v }

@[simp] theorem flag_setFlag_self (name : String) (value : Bool) :
    (m.setFlag name value).own.flag name = value := Function.update_self ..

theorem flag_setFlag_of_ne {name other : String} (h : other ≠ name) (value : Bool) :
    (m.setFlag name value).own.flag other = m.own.flag other := Function.update_of_ne h ..

@[simp] theorem current_setCurrent_self (field : String) (v : Value) :
    (m.setCurrent field v).own.current field = v := Function.update_self ..

theorem current_setCurrent_of_ne {field other : String} (h : other ≠ field) (v : Value) :
    (m.setCurrent field v).own.current other = m.own.current other := Function.update_of_ne h ..

end Memory

/-! ## Behaviours -/

/-- **What calling `next` comes to.** -/
structure Reply (ω : Type) where
  /-- Whether true is returned. -/
  given : Bool
  /-- What was written to `out`, if anything. -/
  out : Option Value
  /-- The memory then. -/
  memory : Memory
  /-- The source then. -/
  world : ω

/-- **What the members of a machine do.** -/
structure Behaviour (ω : Type) where
  /-- What `reset` does. -/
  reset : Memory → ω → Memory × ω
  /-- What `next` does. -/
  next : Memory → ω → Reply ω

/-- **What a machine has** besides its memory. -/
structure Fittings (ω : Type) where
  /-- The values that its list is constructed with. -/
  items : List Value := []
  /-- The generator that it holds. -/
  generator : Option Generator := none
  /-- The fields of the class of its current tuple. -/
  fields : List String := []
  /-- The machines of the fields. -/
  parts : List (Behaviour ω) := []

/-- **What statements change.** -/
structure Scene (ω : Type) where
  /-- The memory. -/
  memory : Memory
  /-- What was written to `out`, if anything. -/
  out : Option Value
  /-- The source to draw from. -/
  world : ω

namespace Machine

variable {ω : Type} (source : Source ω) (c : Fittings ω)

/-- **Steps the machine of a field**, which writes to the field of the
current tuple. -/
def stepPart (i : Nat) (field : String) (s : Scene ω) : Bool × Scene ω :=
  match c.parts[i]? with
  | none => (false, s)
  | some b =>
    let r := b.next (s.memory.part i) s.world
    let memory := s.memory.setPart i r.memory
    (r.given, { s with
      memory := (r.out.map (memory.setCurrent field)).getD memory
      world := r.world })

/-- **Whether a condition holds**, and what testing it changes. -/
def Condition.test (s : Scene ω) : Condition → Bool × Scene ω
  | .flag name => (s.memory.own.flag name, s)
  | .notFlag name => (!s.memory.own.flag name, s)
  | .counterAtLeast n => (decide (n.toInt ≤ s.memory.own.counter), s)
  | .positionAtEnd => (decide (c.items.length ≤ s.memory.own.position), s)
  | .fieldSteps i field => stepPart c i field s
  | .fieldStuck i field => let (given, s) := stepPart c i field s; (!given, s)

mutual

/-- **Runs a statement**: what is returned, if it returns, and the scene
then. -/
def Statement.run : Statement → Scene ω → Option Bool × Scene ω
  | .setFlag name value, s => (none, { s with memory := s.memory.setFlag name value })
  | .setCounter n, s =>
    (none, { s with memory := s.memory.setOwn { s.memory.own with counter := n.toInt } })
  | .setPosition, s =>
    (none, { s with memory := s.memory.setOwn { s.memory.own with position := 0 } })
  | .advanceCounter, s =>
    (none, { s with
      memory := s.memory.setOwn { s.memory.own with counter := s.memory.own.counter + 1 } })
  | .advancePosition, s =>
    (none, { s with
      memory := s.memory.setOwn { s.memory.own with position := s.memory.own.position + 1 } })
  | .giveCounter, s => (none, { s with out := some (.int (Int32.ofInt s.memory.own.counter)) })
  | .giveItem, s => (none, { s with out := c.items[s.memory.own.position]? })
  | .giveTuple, s =>
    (none, { s with out := some (.tuple (c.fields.map s.memory.own.current)) })
  | .giveGenerated, s =>
    match c.generator with
    | none => (none, s)
    | some g => (none, { s with out := some (source g s.world).1, world := (source g s.world).2 })
  | .resetField i, s =>
    match c.parts[i]? with
    | none => (none, s)
    | some b =>
      let (p, w) := b.reset (s.memory.part i) s.world
      (none, { s with memory := s.memory.setPart i p, world := w })
  | .return given, s => (some given, s)
  | .when condition body, s =>
    let (holds, s) := condition.test c s
    if holds then runAll body s else (none, s)

/-- Runs statements one after another, until one returns. -/
def runAll : List Statement → Scene ω → Option Bool × Scene ω
  | [], s => (none, s)
  | st :: rest, s =>
    match st.run s with
    | (some given, s) => (some given, s)
    | (none, s) => runAll rest s

end

/-- **The behaviour of a machine.** -/
def behaviour (m : Machine) : Behaviour ω where
  reset memory w :=
    let s := (runAll source c m.reset ⟨memory, none, w⟩).2
    (s.memory, s.world)
  next memory w :=
    let r := runAll source c m.next ⟨memory, none, w⟩
    ⟨r.1.getD false, r.2.out, r.2.memory, r.2.world⟩

variable {source c}

/-- Statements that do not return are followed by those behind them. -/
theorem runAll_append_of_none {as : List Statement} {s t : Scene ω}
    (h : runAll source c as s = (none, t)) (bs : List Statement) :
    runAll source c (as ++ bs) s = runAll source c bs t := by
  induction as generalizing s with
  | nil => cases h; rfl
  | cons a as ih =>
    rw [List.cons_append, runAll]
    rw [runAll] at h
    split at h
    next => cases h
    next => exact ih h

/-- Statements behind a return are not reached. -/
theorem runAll_append_of_some {as : List Statement} {s t : Scene ω} {given : Bool}
    (h : runAll source c as s = (some given, t)) (bs : List Statement) :
    runAll source c (as ++ bs) s = (some given, t) := by
  induction as generalizing s with
  | nil => cases h
  | cons a as ih =>
    rw [List.cons_append, runAll]
    rw [runAll] at h
    split at h
    next => exact h
    next => exact ih h

theorem test_flag {name : String} {s : Scene ω} {value : Bool}
    (h : s.memory.own.flag name = value) : (Condition.flag name).test c s = (value, s) := by
  rw [Condition.test, h]

theorem test_notFlag {name : String} {s : Scene ω} {value : Bool}
    (h : s.memory.own.flag name = !value) : (Condition.notFlag name).test c s = (value, s) := by
  rw [Condition.test, h, Bool.not_not]

theorem runAll_pass {condition : Condition} {s t : Scene ω}
    (h : condition.test c s = (false, t)) (body rest : List Statement) :
    runAll source c (.when condition body :: rest) s = runAll source c rest t := by
  rw [runAll, Statement.run, h]
  rfl

/-- A condition that holds leads to what is under it. -/
theorem runAll_enter {condition : Condition} {s t u : Scene ω} {body : List Statement}
    {given : Bool} (h : condition.test c s = (true, t))
    (hbody : runAll source c body t = (some given, u)) (rest : List Statement) :
    runAll source c (.when condition body :: rest) s = (some given, u) := by
  rw [runAll, Statement.run, h]
  show (match runAll source c body t with
    | (some given, s) => (some given, s)
    | (none, s) => runAll source c rest s) = _
  rw [hbody]

theorem next_of_runAll {machine : Machine} {m m' : Memory} {w w' : ω} {given : Bool}
    {out : Option Value}
    (h : runAll source c machine.next ⟨m, none, w⟩ = (some given, ⟨m', out, w'⟩)) :
    (machine.behaviour source c).next m w = ⟨given, out, m', w'⟩ := by
  show Reply.mk _ _ _ _ = _
  rw [h]
  rfl

theorem reset_of_runAll {machine : Machine} {m m' : Memory} {w w' : ω} {returned : Option Bool}
    {out : Option Value}
    (h : runAll source c machine.reset ⟨m, none, w⟩ = (returned, ⟨m', out, w'⟩)) :
    (machine.behaviour source c).reset m w = (m', w') := by
  show (_, _) = _
  rw [h]

end Machine

/-! ## The machines of enumerators -/

/-- **The machine of an enumerator.** -/
def Enumerator.machine : Enumerator → Machine
  | .range r => .ofRange r
  | .values _ => .ofValues
  | .product p parts => .ofProduct parts.length p.names
  | .once _ => .ofGenerator

section

variable {ω : Type} (source : Source ω)

mutual

/-- **What the machine of an enumerator does.** -/
def Enumerator.behaviour : Enumerator → Behaviour ω
  | .range r => (Enumerator.range r).machine.behaviour source {}
  | .values v => (Enumerator.values v).machine.behaviour source { items := v.items }
  | .product p parts => (Enumerator.product p parts).machine.behaviour source
    { fields := p.names, parts := enumeratorsBehaviours parts }
  | .once g => (Enumerator.once g).machine.behaviour source { generator := some g }

/-- What the machines of enumerators do. -/
def enumeratorsBehaviours : List Enumerator → List (Behaviour ω)
  | [] => []
  | e :: rest => e.behaviour :: enumeratorsBehaviours rest

end

end

end Specimen
