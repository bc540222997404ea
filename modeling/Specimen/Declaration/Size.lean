import Specimen.Declaration.Basic

/-!
# Declaring comes to an end

What a declaration mentions may have to be declared first, together with
everything that needs. All of it is smaller than the declaration itself
(`Node.sizeOf_calls_of_mem_mentions`), so declaring on demand comes to
an end.
-/

namespace Specimen

mutual

/-- What a type needs declared is no larger than the type. -/
theorem Ty.sizeOf_of_mem_calls : (t : Ty) → ∀ c ∈ t.calls, sizeOf c ≤ sizeOf t
  | .int => by simp [Ty.calls]
  | .range _ => by simp [Ty.calls]
  | .values ⟨ty, _⟩ => fun c h => by
    have := ty.sizeOf_of_mem_calls c h
    simp; omega
  | .product p => fun c h => by
    have := p.sizeOf_of_mem_calls c h
    simp; omega
  | .derived d => fun c h => by
    have := d.sizeOf_of_mem_calls c h
    simp; omega

/-- What a product needs declared is no larger than its own node. -/
theorem Product.sizeOf_of_mem_calls : (p : Product) → ∀ c ∈ p.calls, sizeOf c ≤ 1 + sizeOf p
  | ⟨name, fields⟩ => fun c h => by
    rcases List.mem_append.mp h with h | h
    · have := sizeOf_of_mem_fieldsCalls fields c h
      simp; omega
    · simp only [List.mem_singleton] at h
      subst h
      simp

/-- What fields need declared is no larger than they are. -/
theorem sizeOf_of_mem_fieldsCalls :
    (fields : List Field) → ∀ c ∈ fieldsCalls fields, sizeOf c ≤ sizeOf fields
  | [] => by simp [fieldsCalls]
  | ⟨_, ty, _, _⟩ :: rest => fun c h => by
    rcases List.mem_append.mp h with h | h
    · have := ty.sizeOf_of_mem_calls c h
      simp; omega
    · have := sizeOf_of_mem_fieldsCalls rest c h
      simp; omega

theorem Derived.sizeOf_of_mem_calls : (d : Derived) → ∀ c ∈ d.calls, sizeOf c ≤ sizeOf d
  | ⟨.product p, _, _⟩ => fun c h => by
    have := p.sizeOf_of_mem_calls c h
    simp; omega
  | ⟨.derived d, _, _⟩ => fun c h => by
    have := d.sizeOf_of_mem_calls c h
    simp; omega

end

theorem Derived.sizeOf_basic : (d : Derived) → 1 + sizeOf d.basic < sizeOf d
  | ⟨.product p, _, _⟩ => by simp [Derived.basic]; omega
  | ⟨.derived d, _, _⟩ => by
    have := d.sizeOf_basic
    simp [Derived.basic]; omega

/-- A type is larger than its basic product. -/
theorem Ty.sizeOf_of_basicProduct? :
    (t : Ty) → ∀ p, t.basicProduct? = some p → 1 + sizeOf p ≤ sizeOf t
  | .int => by simp [Ty.basicProduct?]
  | .range _ => by simp [Ty.basicProduct?]
  | .values ⟨ty, _⟩ => fun p h => by
    have := ty.sizeOf_of_basicProduct? p h
    simp; omega
  | .product q => fun p h => by
    simp only [Ty.basicProduct?, Option.some.injEq] at h
    subst h; simp
  | .derived d => fun p h => by
    simp only [Ty.basicProduct?, Option.some.injEq] at h
    subst h
    have := d.sizeOf_basic
    simp; omega

theorem Ty.sizeOf_calls_of_mem_classNode {t : Ty} {d c : Node} (hd : d ∈ t.classNode)
    (hc : c ∈ d.calls) : sizeOf c ≤ sizeOf t := by
  simp only [Ty.classNode, Option.mem_toList, Option.map_eq_some_iff] at hd
  obtain ⟨p, hp, rfl⟩ := hd
  have := t.sizeOf_of_basicProduct? p hp
  have := p.sizeOf_of_mem_calls c hc
  omega

/-- What a function needs declared is no larger than its own node. -/
theorem Function.sizeOf_of_mem_calls (f : Function) :
    ∀ c ∈ f.calls, sizeOf c ≤ 1 + sizeOf f := by
  obtain ⟨name, returns, params, body⟩ := f
  intro c h
  simp only [Function.calls, List.mem_append, List.mem_flatMap, List.mem_singleton] at h
  rcases h with (h | ⟨⟨n, ty⟩, hp, h⟩) | rfl
  · have := returns.sizeOf_of_mem_calls c h
    simp; omega
  · have := ty.sizeOf_of_mem_calls c h
    have := List.sizeOf_lt_of_mem hp
    simp at *; omega
  · simp

mutual

/-- What a generator needs declared is no larger than its own node. -/
theorem Generator.sizeOf_of_mem_calls :
    (g : Generator) → ∀ c ∈ g.calls, sizeOf c ≤ 1 + sizeOf g
  | .uniform _ _ => by simp [Generator.calls]
  | .values ⟨ty, items⟩ => fun c h => by
    rcases List.mem_append.mp h with h | h
    · have := ty.sizeOf_of_mem_calls c h
      simp; omega
    · simp only [List.mem_singleton] at h
      subst h; simp
  | .product p parts => fun c h => by
    simp only [Generator.calls, List.mem_append, List.mem_singleton] at h
    rcases h with (h | h) | rfl
    · have := sizeOf_of_mem_generatorsCalls parts c h
      simp; omega
    · have := p.sizeOf_of_mem_calls c h
      simp; omega
    · simp
  | .call f args => fun c h => by
    simp only [Generator.calls, List.mem_append, List.mem_singleton] at h
    rcases h with (h | h) | rfl
    · have := sizeOf_of_mem_generatorsCalls args c h
      simp; omega
    · have := f.sizeOf_of_mem_calls c h
      simp; omega
    · simp
  | .runArgument name ty => fun c h => by
    rcases List.mem_append.mp h with h | h
    · have := ty.sizeOf_of_mem_calls c h
      simp; omega
    · simp only [List.mem_singleton] at h
      subst h; simp

/-- What generators need declared is no larger than they are. -/
theorem sizeOf_of_mem_generatorsCalls :
    (gs : List Generator) → ∀ c ∈ generatorsCalls gs, sizeOf c ≤ sizeOf gs
  | [] => by simp [generatorsCalls]
  | g :: rest => fun c h => by
    rcases List.mem_append.mp h with h | h
    · have := g.sizeOf_of_mem_calls c h
      simp; omega
    · have := sizeOf_of_mem_generatorsCalls rest c h
      simp; omega

end

mutual

/-- What an enumerator needs declared is no larger than its own node. -/
theorem Enumerator.sizeOf_of_mem_calls :
    (e : Enumerator) → ∀ c ∈ e.calls, sizeOf c ≤ 1 + sizeOf e
  | .range _ => by simp [Enumerator.calls]
  | .values ⟨ty, items⟩ => fun c h => by
    rcases List.mem_append.mp h with h | h
    · have := ty.sizeOf_of_mem_calls c h
      simp; omega
    · simp only [List.mem_singleton] at h
      subst h; simp
  | .product p parts => fun c h => by
    simp only [Enumerator.calls, List.mem_append, List.mem_singleton] at h
    rcases h with (h | h) | rfl
    · have := sizeOf_of_mem_enumeratorsCalls parts c h
      simp; omega
    · have := p.sizeOf_of_mem_calls c h
      simp; omega
    · simp
  | .once g => fun c h => by
    rcases List.mem_append.mp h with h | h
    · have := g.sizeOf_of_mem_calls c h
      simp; omega
    · simp only [List.mem_singleton] at h
      subst h; simp

/-- What enumerators need declared is no larger than they are. -/
theorem sizeOf_of_mem_enumeratorsCalls :
    (es : List Enumerator) → ∀ c ∈ enumeratorsCalls es, sizeOf c ≤ sizeOf es
  | [] => by simp [enumeratorsCalls]
  | e :: rest => fun c h => by
    rcases List.mem_append.mp h with h | h
    · have := e.sizeOf_of_mem_calls c h
      simp; omega
    · have := sizeOf_of_mem_enumeratorsCalls rest c h
      simp; omega

end

/-- A generator is larger than the type of what it yields. -/
theorem Generator.sizeOf_outputType (g : Generator) : sizeOf g.outputType ≤ sizeOf g := by
  cases g with
  | values v => cases v; simp [Generator.outputType]; omega
  | call f args => cases f; simp [Generator.outputType]; omega
  | uniform => simp [Generator.outputType]; omega
  | product => simp [Generator.outputType]
  | runArgument => simp [Generator.outputType]

/-- **What a declaration mentions needs only smaller declarations.** This
is why declaring ends: a node declares what it mentions before itself, and
the calls that takes are for nodes smaller than it. -/
theorem Node.sizeOf_calls_of_mem_mentions {n d c : Node} (hd : d ∈ n.mentions)
    (hc : c ∈ d.calls) : sizeOf c < sizeOf n := by
  cases n with
  | productClass p =>
    obtain ⟨name, fields⟩ := p
    simp only [Node.mentions, List.mem_flatMap] at hd
    obtain ⟨f, hf, hd⟩ := hd
    have := Ty.sizeOf_calls_of_mem_classNode hd hc
    have := List.sizeOf_lt_of_mem hf
    cases f
    simp at *; omega
  | function f =>
    obtain ⟨name, returns, params, body⟩ := f
    simp only [Node.mentions, List.mem_append, List.mem_flatMap] at hd
    rcases hd with hd | ⟨p, hp, hd⟩
    · have := Ty.sizeOf_calls_of_mem_classNode hd hc
      simp; omega
    · have := Ty.sizeOf_calls_of_mem_classNode hd hc
      have := List.sizeOf_lt_of_mem hp
      cases p
      simp at *; omega
  | generator g =>
    cases g with
    | uniform => simp [Node.mentions] at hd
    | values v =>
      have := Ty.sizeOf_calls_of_mem_classNode hd hc
      cases v
      simp at *; omega
    | product p parts =>
      simp only [Node.mentions, List.mem_cons, List.mem_map] at hd
      rcases hd with rfl | ⟨g, hg, rfl⟩
      · have := p.sizeOf_of_mem_calls c hc
        simp; omega
      · have := g.sizeOf_of_mem_calls c hc
        have := List.sizeOf_lt_of_mem hg
        simp; omega
    | call f args =>
      obtain ⟨name, returns, params, body⟩ := f
      simp only [Node.mentions, List.mem_append, List.mem_map, List.mem_flatMap] at hd
      rcases hd with (hd | ⟨g, hg, rfl⟩) | ⟨p, hp, hd⟩
      · have := Ty.sizeOf_calls_of_mem_classNode hd hc
        simp; omega
      · have := g.sizeOf_of_mem_calls c hc
        have := List.sizeOf_lt_of_mem hg
        simp; omega
      · have := Ty.sizeOf_calls_of_mem_classNode hd hc
        have := List.sizeOf_lt_of_mem hp
        cases p
        simp at *; omega
    | runArgument name ty =>
      have := Ty.sizeOf_calls_of_mem_classNode hd hc
      simp; omega
  | enumerator e =>
    cases e with
    | range => simp [Node.mentions] at hd
    | values v =>
      have := Ty.sizeOf_calls_of_mem_classNode hd hc
      cases v
      simp at *; omega
    | product p parts =>
      simp only [Node.mentions, List.mem_cons, List.mem_map] at hd
      rcases hd with rfl | ⟨e, he, rfl⟩
      · have := p.sizeOf_of_mem_calls c hc
        simp; omega
      · have := e.sizeOf_of_mem_calls c hc
        have := List.sizeOf_lt_of_mem he
        simp; omega
    | once g =>
      simp only [Node.mentions, List.mem_append, List.mem_singleton] at hd
      rcases hd with hd | rfl
      · have := Ty.sizeOf_calls_of_mem_classNode hd hc
        have := g.sizeOf_outputType
        simp; omega
      · have := g.sizeOf_of_mem_calls c hc
        simp; omega

end Specimen
