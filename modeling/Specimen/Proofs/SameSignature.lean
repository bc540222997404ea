import Specimen.Proofs.Made
import Specimen.Proofs.SignatureKey

/-!
# Types of one signature

The names in a type that was made are identifiers, in the type itself
and in all the types it has for fields, because a name is given to a
product or to a field only where it has been checked. So the signature
of such a type is a key for its layout, and two of one signature cannot
be told apart by the values they accept or by what they read
(`Made.signature_eq_iff`).

Ranges, lists of values, overrides and where values come from are not
part of the layout. Types that differ only in these have one signature.
-/

namespace Specimen

/-! ## The names in a layout -/

/-- The names in the layouts of fields are identifiers when those of each
field are. -/
theorem fieldsIdentified_fieldLayouts {fields : List Field}
    (h : ∀ f ∈ fields, isIdentifier f.name = true ∧ f.ty.layout.identified = true) :
    Layout.fieldsIdentified (fieldLayouts fields) = true := by
  induction fields with
  | nil => rw [fieldLayouts, Layout.fieldsIdentified]
  | cons f fields ih =>
    obtain ⟨name, ty, generator, enumerator⟩ := f
    rw [List.forall_mem_cons] at h
    rw [fieldLayouts, Layout.fieldsIdentified, Bool.and_eq_true, Bool.and_eq_true]
    exact ⟨h.1, ih h.2⟩

mutual

/-- **The names in the layout of a well-formed type are identifiers.** -/
theorem Ty.WellFormed.identified : {t : Ty} → t.WellFormed → t.layout.identified = true
  | _, .int => by rw [Ty.layout, Layout.identified]
  | _, .range _ => by rw [Ty.layout, Layout.identified]
  | .values ⟨ty, items⟩, .values (.intro hty _ _) => by
    rw [Ty.layout]
    exact hty.identified
  | _, .product hp => by
    rw [Ty.layout]
    exact hp.identified
  | _, .derived hd => by
    rw [Ty.layout]
    exact hd.identified

theorem Product.WellFormed.identified : {p : Product} → p.WellFormed →
    p.layout.identified = true
  | ⟨name, fields⟩, .intro hname hfields _ => by
    rw [Product.layout, Layout.identified, Bool.and_eq_true]
    exact ⟨hname, fieldsIdentified_fieldLayouts fun f hf => (hfields f hf).identified⟩

theorem Field.WellFormed.identified : {f : Field} → f.WellFormed →
    isIdentifier f.name = true ∧ f.ty.layout.identified = true
  | _, .intro hname hty _ _ _ _ => ⟨hname, hty.identified⟩

/-- The names in the layout of a well-formed derived product are
identifiers: those of the product at its root. -/
theorem Derived.WellFormed.identified : {d : Derived} → d.WellFormed →
    d.layout.identified = true
  | ⟨.product p, _, _⟩, .intro (.product hp) _ _ _ _ => by
    rw [Derived.layout]
    exact hp.identified
  | ⟨.derived d, _, _⟩, .intro (.derived hd) _ _ _ _ => by
    rw [Derived.layout]
    exact hd.identified

end

/-! ## The signature of what is made -/

/-- **The signature is a key.** Types that were made have one signature
exactly when they have one layout, so types of one signature accept the
same values and read the same from every stream. It takes identifiers for
names: a name with a colon or a brace in it could spell the signature of
another layout. -/
theorem Made.signature_eq_iff {s t : Ty} (hs : Made (.ty s)) (ht : Made (.ty t)) :
    (s.signature = t.signature ↔ s.layout = t.layout) ∧
      (s.signature = t.signature →
        (∀ v, s.accepts v = t.accepts v) ∧ ∀ stream, s.read stream = t.read stream) := by
  have hwell : s.WellFormed ∧ t.WellFormed := ⟨hs.wellFormed, ht.wellFormed⟩
  have hkey : s.signature = t.signature → s.layout = t.layout := fun hsig =>
    Layout.signature_injective hwell.1.identified hwell.2.identified hsig
  refine ⟨⟨hkey, fun hlayout => ?_⟩, fun hsig => ⟨fun v => ?_, fun stream => ?_⟩⟩
  · rw [Ty.signature, Ty.signature, hlayout]
  · rw [Ty.accepts, Ty.accepts, hkey hsig]
  · rw [Ty.read, Ty.read, hkey hsig]

/-- A product of an integer and a derived product whose field is a
range, of one name. -/
theorem Made.signature_eq_iff_derived :
    ∃ r p q, Ty.ofRange 0 5 = .ok r ∧
      Product.ofFields (some "P") [(some "x", .int)] = .ok p ∧
      Product.ofFields (some "P") [(some "x", r)] = .ok q ∧
      (Ty.product p).layout = (Ty.derived q.derive).layout ∧
      ∀ stream, (Ty.product p).read stream = (Ty.derived q.derive).read stream := by
  have hr : Ty.ofRange 0 5 = .ok (.range ⟨0, 5⟩) := rfl
  have hp : Product.ofFields (some "P") [(some "x", .int)]
      = .ok ((Product.empty (some "P")).push "x" .int) := rfl
  have hq : Product.ofFields (some "P") [(some "x", .range ⟨0, 5⟩)]
      = .ok ((Product.empty (some "P")).push "x" (.range ⟨0, 5⟩)) := rfl
  have hfirst := Made.ofFields (fun f hf => List.mem_singleton.mp hf ▸ .int) hp
  have hsecond := Made.ofFields (fun f hf => List.mem_singleton.mp hf ▸ .range hr) hq
  obtain ⟨hiff, hsame⟩ :=
    Made.signature_eq_iff (.ofProduct hfirst) (.ofDerived (.derive hsecond))
  exact ⟨_, _, _, hr, hp, hq, hiff.mp rfl, (hsame rfl).2⟩

end Specimen
