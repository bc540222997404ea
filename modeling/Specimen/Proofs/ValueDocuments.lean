import Mathlib.Data.Set.Function
import Specimen.Description.Value
import Specimen.Json.Number
import Specimen.Proofs.Outcome

/-!
# The documents of values

Reading a value off a document and writing one down undo each other. The
documents that are read are those made of **parts** only, at whatever
depth: arrays, and numbers held as integers of 32 bits. Of any other
document, the fault that is reported is that of its first node, going
from the left and down before on, that is no part
(`Value.ofJson_exact`).
-/

namespace Specimen

/-! ## The nodes of a document -/

namespace Json

mutual

/-- **The nodes of a document**, each in front of those inside it. -/
def nodes : Json → List Json
  | .array items => .array items :: nodesItems items
  | .object members => .object members :: nodesMembers members
  | .null => [.null]
  | .bool b => [.bool b]
  | .number n => [.number n]
  | .string s => [.string s]

/-- The nodes of documents, one document after the other. -/
def nodesItems : List Json → List Json
  | [] => []
  | j :: rest => nodes j ++ nodesItems rest

/-- The nodes of the members of an object. -/
def nodesMembers : List Member → List Json
  | [] => []
  | ⟨_, value⟩ :: rest => nodes value ++ nodesMembers rest

end

/-- A node that the document of a value may have: an array, or a number
held as an integer of 32 bits. -/
def IsPart : Json → Prop
  | .array _ => True
  | .number (.integer i) => -2147483648 ≤ i ∧ i ≤ 2147483647
  | _ => False

/-- What is wrong with a node that is no part. A number beyond the
integers of 64 bits with sign is faulted as no integer. -/
def fault? : Json → Option DescriptionFault
  | .array _ => none
  | .number (.integer i) =>
    if -2147483648 ≤ i ∧ i ≤ 2147483647 then none
    else if i < 9223372036854775808 then some (.outOfRange i)
    else some (.notInteger (.integer i))
  | .number (.real x) => some (.notInteger (.real x))
  | .null => some (.notValue .null)
  | .bool b => some (.notValue (.bool b))
  | .string s => some (.notValue (.string s))
  | .object members => some (.notValue (.object members))

/-- The parts are the nodes with nothing wrong. -/
theorem fault?_eq_none {j : Json} : j.fault? = none ↔ j.IsPart := by
  match j with
  | .array _ => exact ⟨fun _ => trivial, fun _ => rfl⟩
  | .number (.integer i) =>
    rw [fault?, IsPart]
    split
    next h => exact ⟨fun _ => h, fun _ => rfl⟩
    next h =>
      refine ⟨fun hf => ?_, fun hp => absurd hp h⟩
      split at hf <;> cases hf
  | .number (.real _) | .null | .bool _ | .string _ | .object _ => exact ⟨nofun, nofun⟩

namespace Number

/-- The integer of a number is the one it is held as. -/
theorem int32_eq_ok {n : Number} {k : Int32} : n.int32 = .ok k ↔ .integer k.toInt = n := by
  have hk : -2 ^ 31 ≤ k.toInt ∧ k.toInt < 2 ^ 31 := ⟨k.le_toInt, k.toInt_lt⟩
  cases n with
  | real x => exact ⟨nofun, nofun⟩
  | integer i =>
    rw [int32, refuse_eq_ok, Int32.toInt_minValue, Int32.toInt_maxValue, halfWordCount]
    constructor
    · rintro ⟨-, h⟩
      split at h
      next hi =>
        rw [← Except.ok.inj h, Int32.toInt_ofInt_of_le hi.1 (by omega)]
      next => cases h
    · intro h
      obtain rfl : k.toInt = i := Number.integer.inj h
      refine ⟨by omega, ?_⟩
      rw [if_pos (by omega), Int32.ofInt_toInt]

/-- A number that gives no integer is faulted for what it is held as. -/
theorem int32_eq_error {n : Number} {e : DescriptionFault} :
    n.int32 = .error e ↔ (Json.number n).fault? = some e := by
  cases n with
  | real x =>
    have hint : int32 (.real x) = .error (.notInteger (.real x)) := rfl
    rw [hint, fault?, Except.error.injEq, Option.some.injEq]
  | integer i =>
    rw [int32, fault?, Int32.toInt_minValue, Int32.toInt_maxValue, halfWordCount]
    by_cases hpart : -2147483648 ≤ i ∧ i ≤ 2147483647
    · rw [if_neg (by omega), if_pos (by omega), if_pos hpart]
      exact ⟨nofun, nofun⟩
    by_cases hword : i < 9223372036854775808
    · rw [if_neg (by omega), if_neg (by omega), if_neg hpart, if_pos hword, Except.error.injEq,
        Option.some.injEq]
    · rw [if_pos (by omega), if_neg hpart, if_neg hword, Except.error.injEq, Option.some.injEq]

/-- The text writes an integer of 32 bits: it has neither a fraction nor
a power of ten, it is in range, and it is not minus zero. -/
def Parts.WritesInt32 (p : Parts) : Prop :=
  p.fraction = [] ∧ p.power = none ∧
    if p.negative then 0 < ofDigits p.whole ∧ ofDigits p.whole ≤ 2147483648
    else ofDigits p.whole < 2147483648

instance (p : Parts) : Decidable p.WritesInt32 := inferInstanceAs (Decidable (_ ∧ _ ∧ _))

/-- What is held as an integer, and as which. -/
theorem Parts.integer?_eq_some {p : Parts} {i : Int} :
    p.integer? = some i ↔ p.fraction = [] ∧ p.power = none ∧
      if p.negative then
        0 < ofDigits p.whole ∧ ofDigits p.whole ≤ halfWordCount ∧ -(ofDigits p.whole : Int) = i
      else ofDigits p.whole < wordCount ∧ (ofDigits p.whole : Int) = i := by
  obtain ⟨negative, whole, fraction, power⟩ := p
  cases fraction with
  | cons d fraction => exact ⟨nofun, nofun⟩
  | nil =>
    cases power with
    | some power => exact ⟨nofun, nofun⟩
    | none => cases negative <;> simp [integer?, and_assoc]

/-- What writes an integer of 32 bits is held as that integer. -/
theorem Parts.writesInt32_iff {p : Parts} :
    p.WritesInt32 ↔ ∃ i, p.integer? = some i ∧ -2147483648 ≤ i ∧ i ≤ 2147483647 := by
  simp only [integer?_eq_some, WritesInt32, wordCount, halfWordCount]
  cases p.negative with
  | false =>
    simp only [Bool.false_eq_true, if_false]
    constructor
    · rintro ⟨hfraction, hpower, hd⟩
      exact ⟨_, ⟨hfraction, hpower, by omega, rfl⟩, by omega, by omega⟩
    · rintro ⟨i, ⟨hfraction, hpower, -, rfl⟩, hi⟩
      exact ⟨hfraction, hpower, by omega⟩
  | true =>
    simp only [if_true]
    constructor
    · rintro ⟨hfraction, hpower, hd⟩
      exact ⟨_, ⟨hfraction, hpower, by omega, by omega, rfl⟩, by omega, by omega⟩
    · rintro ⟨i, ⟨hfraction, hpower, hd, -, rfl⟩, hi⟩
      exact ⟨hfraction, hpower, by omega⟩

/-- **A number is a part** when its text writes an integer of 32 bits. -/
theorem isPart_iff_writesInt32 {text : List Char} {p : Parts} {n : Number}
    (hp : Parts.ofText? text = some p) (hn : ofText? text = some n) :
    (Json.number n).IsPart ↔ p.WritesInt32 := by
  rw [ofText?, hp, Option.bind_eq_bind, Option.bind_some] at hn
  rw [Parts.writesInt32_iff]
  cases hi : p.integer? with
  | some i =>
    rw [hi] at hn
    cases hn
    refine ⟨fun h => ⟨i, rfl, h⟩, ?_⟩
    rintro ⟨i', hi', h⟩
    rwa [← Option.some.inj hi'] at h
  | none =>
    rw [hi] at hn
    obtain ⟨x, -, rfl⟩ := Option.map_eq_some_iff.mp hn
    refine ⟨False.elim, ?_⟩
    rintro ⟨i, h, -⟩
    cases h

end Number

end Json

/-! ## Reading a document -/

namespace Value

mutual

/-- **A document is read as the value it is the document of.** Since
writing a value down is a function, this makes the two inverse to each
other, and a document is read as one value at most. -/
theorem ofJson_eq_ok : (j : Json) → (v : Value) → (ofJson j = .ok v ↔ v.toJson = j)
  | .number n, v => by
    rw [ofJson]
    refine map_eq_ok.trans ?_
    simp only [Json.Number.int32_eq_ok]
    cases v with
    | int m =>
      rw [toJson, Json.ofInt, Json.number.injEq]
      refine ⟨?_, fun h => ⟨m, h, rfl⟩⟩
      rintro ⟨k, hk, hkm⟩
      rwa [← int.inj hkm]
    | tuple vs => exact ⟨fun ⟨_, _, h⟩ => (nomatch h), nofun⟩
  | .array items, v => by
    rw [ofJson]
    refine map_eq_ok.trans ?_
    cases v with
    | int m => exact ⟨fun ⟨_, _, h⟩ => (nomatch h), nofun⟩
    | tuple vs =>
      rw [toJson, Json.array.injEq, ← ofJsonItems_eq_ok items vs]
      refine ⟨?_, fun h => ⟨vs, h, rfl⟩⟩
      rintro ⟨us, hus, huv⟩
      rwa [← tuple.inj huv]
  | .null, v | .bool _, v | .string _, v | .object _, v => by
    cases v <;> exact ⟨nofun, nofun⟩

/-- Documents are read as the values they are the documents of. -/
theorem ofJsonItems_eq_ok : (items : List Json) → (vs : List Value) →
    (ofJsonItems items = .ok vs ↔ toJsonItems vs = items)
  | [], vs => by
    cases vs with
    | nil => exact ⟨fun _ => rfl, fun _ => rfl⟩
    | cons v vs => exact ⟨nofun, nofun⟩
  | j :: items, vs => by
    rw [ofJsonItems, bind_eq_ok]
    simp only [bind_eq_ok, pure_eq_ok, ofJson_eq_ok j, ofJsonItems_eq_ok items]
    cases vs with
    | nil => exact ⟨fun ⟨_, _, _, _, h⟩ => (nomatch h), nofun⟩
    | cons v vs =>
      rw [toJsonItems, List.cons.injEq]
      refine ⟨?_, fun ⟨hv, hvs⟩ => ⟨v, hv, vs, hvs, rfl⟩⟩
      rintro ⟨u, hu, us, hus, h⟩
      rw [← (List.cons.inj h).1, ← (List.cons.inj h).2]
      exact ⟨hu, hus⟩

end

mutual

/-- **A document is refused for its first node that is no part.** -/
theorem ofJson_eq_error : (j : Json) → (e : DescriptionFault) →
    (ofJson j = .error e ↔ j.nodes.findSome? Json.fault? = some e)
  | .number n, e => by
    rw [ofJson, Json.nodes, List.findSome?_singleton, ← Json.Number.int32_eq_error]
    exact map_eq_error
  | .array items, e => by
    rw [ofJson, Json.nodes, List.findSome?_cons_of_isNone rfl, ← ofJsonItems_eq_error items e]
    exact map_eq_error
  | .null, e | .bool _, e | .string _, e | .object _, e => by
    rw [ofJson, Json.nodes, List.findSome?_cons, Json.fault?, Except.error.injEq,
      Option.some.injEq]

/-- Documents are refused for the first node of them that is no part. -/
theorem ofJsonItems_eq_error : (items : List Json) → (e : DescriptionFault) →
    (ofJsonItems items = .error e ↔ (Json.nodesItems items).findSome? Json.fault? = some e)
  | [], e => ⟨nofun, nofun⟩
  | j :: items, e => by
    rw [ofJsonItems, Json.nodesItems, List.findSome?_append, Option.or_eq_some_iff,
      ← ofJson_eq_error j e, ← ofJsonItems_eq_error items e, bind_eq_error]
    -- nothing but the items that follow can fail once the first is read
    have hfirst : (∃ v, ofJson j = .ok v) ↔ j.nodes.findSome? Json.fault? = none := by
      simp only [exists_eq_ok, Ne, ofJson_eq_error j, Option.eq_none_iff_forall_ne_some]
    rw [← hfirst]
    refine or_congr Iff.rfl ⟨?_, ?_⟩
    · rintro ⟨v, hv, h⟩
      exact ⟨⟨v, hv⟩, map_eq_error.mp h⟩
    · rintro ⟨⟨v, hv⟩, h⟩
      exact ⟨v, hv, map_eq_error.mpr h⟩

end

/-- A document is read when each of its nodes is a part. -/
theorem exists_ofJson_iff {j : Json} : (∃ v, ofJson j = .ok v) ↔ ∀ n ∈ j.nodes, n.IsPart := by
  simp only [exists_eq_ok, Ne, ofJson_eq_error j, ← Option.eq_none_iff_forall_ne_some,
    List.findSome?_eq_none_iff, Json.fault?_eq_none]

theorem exists_ofJson_error {j n : Json} (hmem : n ∈ j.nodes) (hn : ¬n.IsPart) :
    ∃ e, ofJson j = .error e := by
  cases h : ofJson j with
  | error e => exact ⟨e, rfl⟩
  | ok v => exact absurd (exists_ofJson_iff.mp ⟨v, h⟩ n hmem) hn

/-- Texts of numbers that are no integers of 32 bits: minus zero is none,
nor is what has a fraction, nor is what is one too large. -/
theorem not_writesInt32_of_mem {text : String} (h : text ∈ ["-0", "1.0", "2147483648"]) :
    ∃ p, Json.Number.Parts.ofText? text.toList = some p ∧ ¬p.WritesInt32 := by
  simp only [List.mem_cons, List.not_mem_nil, or_false] at h
  rcases h with rfl | rfl | rfl
  · exact ⟨⟨true, [0], [], none⟩, rfl, by decide⟩
  · exact ⟨⟨false, [1], [0], none⟩, rfl, by decide⟩
  · exact ⟨⟨false, [2, 1, 4, 7, 4, 8, 3, 6, 4, 8], [], none⟩, rfl, by decide⟩

/-- **Values and the documents made of parts are the same**: writing a
value down and reading a document are inverse to each other, a document
is read exactly when each of its nodes is a part, and one that is not is
refused for the first of its nodes that is none. So one that has a node
written as minus zero, with a fraction, or beyond 32 bits is refused, at
whatever depth the node stands. -/
theorem ofJson_exact :
    (∀ v : Value, ofJson v.toJson = .ok v) ∧
    Set.BijOn toJson Set.univ {j | ∀ n ∈ j.nodes, n.IsPart} ∧
    ∀ j : Json,
      ((∃ v, ofJson j = .ok v) ↔ ∀ n ∈ j.nodes, n.IsPart) ∧
      (∀ v, ofJson j = .ok v → v.toJson = j) ∧
      (∀ e, ofJson j = .error e ↔ ∃ before node after, j.nodes = before ++ node :: after ∧
        (∀ n ∈ before, n.IsPart) ∧ node.fault? = some e) ∧
      ∀ text ∈ ["-0", "1.0", "2147483648"], ∀ n, Json.Number.ofText? text.toList = some n →
        .number n ∈ j.nodes → ∃ e, ofJson j = .error e := by
  have hread : ∀ v : Value, ofJson v.toJson = .ok v := fun v => (ofJson_eq_ok _ v).mpr rfl
  refine ⟨hread, ⟨?_, ?_, ?_⟩, fun j => ⟨exists_ofJson_iff, fun v => (ofJson_eq_ok j v).mp, ?_, ?_⟩⟩
  · exact fun v _ => exists_ofJson_iff.mp ⟨v, hread v⟩
  · intro v _ w _ h
    exact Except.ok.inj ((hread v).symm.trans (h ▸ hread w))
  · intro j hj
    obtain ⟨v, hv⟩ := exists_ofJson_iff.mpr hj
    exact ⟨v, trivial, (ofJson_eq_ok j v).mp hv⟩
  · intro e
    rw [ofJson_eq_error, List.findSome?_eq_some_iff]
    simp only [Json.fault?_eq_none, and_comm]
  · intro text htext n hn hmem
    obtain ⟨p, hp, hwrites⟩ := not_writesInt32_of_mem htext
    exact exists_ofJson_error hmem
      (fun hpart => hwrites ((Json.Number.isPart_iff_writesInt32 hp hn).mp hpart))

/-- In `[1, [2147483648, "a"], true]` the integer out of range comes
first, in `[[2147483648]]` it is as much out of range as its text says,
and in `[-2147483648, []]` there is nothing to refuse. -/
theorem ofJson_exact_nested :
    ofJson (.array [.ofInt 1, .array [.ofInt 2147483648, .string "a"], .bool true])
      = .error (.outOfRange 2147483648) ∧
    (∃ e, ofJson (.array [.array [.ofInt 2147483648]]) = .error e) ∧
    ∃ v, ofJson (.array [.ofInt (-2147483648), .array []]) = .ok v ∧
      v.toJson = .array [.ofInt (-2147483648), .array []] := by
  refine ⟨((ofJson_exact.2.2 _).2.2.1 _).mpr ⟨[_, .ofInt 1, .array _], .ofInt 2147483648,
    [.string "a", .bool true], rfl, ?_, rfl⟩,
    (ofJson_exact.2.2 _).2.2.2 "2147483648" (by decide) (.integer 2147483648) rfl ?_, ?_⟩
  · simp [Json.IsPart, Json.ofInt]
  · simp [Json.nodes, Json.nodesItems, Json.ofInt]
  · obtain ⟨v, hv⟩ := (ofJson_exact.2.2 (.array [.ofInt (-2147483648), .array []])).1.mpr
      (by simp [Json.nodes, Json.nodesItems, Json.IsPart, Json.ofInt])
    exact ⟨v, hv, (ofJson_exact.2.2 _).2.1 v hv⟩

end Value

end Specimen
