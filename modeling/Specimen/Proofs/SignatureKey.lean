import Specimen.Layout.Basic
import Specimen.Proofs.Names

/-!
# The signature is a key

Everything that is shared between types of one layout is found by the
signature, a text. So two layouts with one signature must be one layout,
and they are as long as the names in them are identifiers
(`Layout.signature_injective`): a product called `int` is told from the
integers by its brace, a product without a name from any with one, and
a product without fields from a field without a name.

The proof goes through both layouts at once. It compares them in front
of what follows (`Layout.signature_append_inj`), because in the
signature of a product those of its fields do not stand alone.
-/

namespace Specimen

namespace Layout

mutual

/-- **Whether the names in a layout are identifiers**, those of products
only where there are any. -/
def identified : Layout → Bool
  | .int => true
  | .product name fields => name.all isIdentifier && fieldsIdentified fields

/-- Whether the names in fields are identifiers. -/
def fieldsIdentified : List LayoutField → Bool
  | [] => true
  | ⟨name, layout⟩ :: rest => isIdentifier name && layout.identified && fieldsIdentified rest

end

/-! ## The parts of a signature -/

/-- A signature is closed off by a comma, a brace or the end of the
text. -/
def Closes (cs : List Char) : Prop := ∀ c ∈ cs.head?, c = ',' ∨ c = '\x7d'

theorem Closes.endsName {cs : List Char} (h : Closes cs) : EndsName cs := by
  intro c hc
  rcases h c hc with rfl | rfl <;> rfl

/-- The text of fields up to the closing brace. -/
def closing (fields : List LayoutField) : List Char :=
  (",".intercalate (fieldSignatures fields)).toList ++ ['\x7d']

/-- What follows a field: the closing brace, or a comma and the other
fields. -/
def behind : List LayoutField → List Char
  | [] => ['\x7d']
  | f :: fields => ',' :: closing (f :: fields)

/-- What follows a field closes its signature. -/
theorem closes_behind (fields : List LayoutField) (cs : List Char) :
    Closes (behind fields ++ cs) := by
  intro c hc
  cases fields with
  | nil => exact .inr (Option.some.inj hc).symm
  | cons f fields => exact .inl (Option.some.inj hc).symm

theorem closing_nil : closing [] = ['\x7d'] := rfl

theorem closing_cons (name : String) (l : Layout) (fields : List LayoutField) :
    closing (⟨name, l⟩ :: fields)
      = name.toList ++ ':' :: (l.signature.toList ++ behind fields) := by
  unfold closing
  cases fields with
  | nil =>
    rw [fieldSignatures, fieldSignatures, String.intercalate_singleton, String.toList_append,
      String.toList_append, List.append_assoc, List.append_assoc]
    rfl
  | cons f fields =>
    obtain ⟨m, l'⟩ := f
    rw [fieldSignatures, fieldSignatures, String.intercalate_cons_cons, String.toList_append,
      String.toList_append, String.toList_append, String.toList_append, List.append_assoc,
      List.append_assoc, List.append_assoc, List.append_assoc]
    rfl

/-- The signature of a product: its name, a brace, and its fields. -/
theorem toList_signature_product (name : Option String) (fields : List LayoutField) :
    (product name fields).signature.toList
      = (name.getD "").toList ++ '\x7b' :: closing fields := by
  rw [signature, String.toList_append, String.toList_append, String.toList_append,
    List.append_assoc, List.append_assoc]
  rfl

/-! ## Names of products -/

/-- The name of a product is told from what follows it, and no name from
any. -/
theorem getD_inj {m n : Option String} (hm : m.all isIdentifier = true)
    (hn : n.all isIdentifier = true) (h : (m.getD "").toList = (n.getD "").toList) :
    m = n := by
  cases m with
  | none =>
    cases n with
    | none => rfl
    | some n => exact absurd h.symm (identifier_chars hn).1
  | some m =>
    cases n with
    | none => exact absurd h (identifier_chars hm).1
    | some n => exact congrArg some (String.toList_inj.mp h)

/-- The signature of the integers could be a name. -/
theorem int_chars : ∀ c ∈ Layout.int.signature.toList, continuesIdentifier c = true :=
  List.all_eq_true.mp rfl

theorem getD_chars {n : Option String} (hn : n.all isIdentifier = true) :
    ∀ c ∈ (n.getD "").toList, continuesIdentifier c = true := by
  cases n with
  | none => exact nofun
  | some n => exact (identifier_chars hn).2

/-! ## Both layouts at once -/

mutual

/-- **A layout is told from its signature**, whatever closes it. By
induction on the layouts: a name ends at the brace or the colon behind it,
and a field at the comma or the brace, which no identifier has in it. -/
theorem signature_append_inj : (a b : Layout) → a.identified = true → b.identified = true →
    (cs ds : List Char) → Closes cs → Closes ds →
    a.signature.toList ++ cs = b.signature.toList ++ ds → a = b ∧ cs = ds
  | .int, .int, _, _, cs, ds, _, _, h => ⟨rfl, List.append_cancel_left h⟩
  | .int, .product n gs, _, hb, cs, ds, hcs, _, h => by
    rw [identified, Bool.and_eq_true] at hb
    rw [toList_signature_product, List.append_assoc] at h
    obtain ⟨-, hbrace⟩ := append_inj_of_identifier int_chars (getD_chars hb.1)
      hcs.endsName (fun c hc => by cases hc; rfl) h
    -- what follows `int` is closed off, not opened by a brace
    rw [hbrace] at hcs
    rcases hcs _ rfl with hc | hc <;> cases hc
  | .product m fs, .int, ha, _, cs, ds, _, hds, h => by
    rw [identified, Bool.and_eq_true] at ha
    rw [toList_signature_product, List.append_assoc] at h
    obtain ⟨-, hbrace⟩ := append_inj_of_identifier (getD_chars ha.1) int_chars
      (fun c hc => by cases hc; rfl) hds.endsName h
    rw [← hbrace] at hds
    rcases hds _ rfl with hc | hc <;> cases hc
  | .product m fs, .product n gs, ha, hb, cs, ds, _, _, h => by
    rw [identified, Bool.and_eq_true] at ha hb
    rw [toList_signature_product, toList_signature_product, List.append_assoc,
      List.append_assoc] at h
    obtain ⟨hname, hrest⟩ := append_inj_of_identifier (getD_chars ha.1) (getD_chars hb.1)
      (fun c hc => by cases hc; rfl) (fun c hc => by cases hc; rfl) h
    obtain ⟨hfields, hcd⟩ := closing_append_inj fs gs ha.2 hb.2 cs ds (List.cons.inj hrest).2
    rw [getD_inj ha.1 hb.1 hname, hfields]
    exact ⟨rfl, hcd⟩
termination_by a => (sizeOf a, 0)

/-- The fields of a product are told from their text up to the closing
brace. -/
theorem closing_append_inj : (fs gs : List LayoutField) → fieldsIdentified fs = true →
    fieldsIdentified gs = true → (cs ds : List Char) →
    closing fs ++ cs = closing gs ++ ds → fs = gs ∧ cs = ds
  | [], [], _, _, cs, ds, h => ⟨rfl, List.append_cancel_left h⟩
  | [], ⟨n, b⟩ :: gs, _, hg, cs, ds, h => by
    rw [fieldsIdentified, Bool.and_eq_true, Bool.and_eq_true] at hg
    rw [closing_nil, closing_cons, List.append_assoc] at h
    exact absurd h (EndsName.ne_append (fun c hc => by cases hc; rfl) hg.1.1)
  | ⟨m, a⟩ :: fs, [], hf, _, cs, ds, h => by
    rw [fieldsIdentified, Bool.and_eq_true, Bool.and_eq_true] at hf
    rw [closing_nil, closing_cons, List.append_assoc] at h
    exact absurd h.symm (EndsName.ne_append (fun c hc => by cases hc; rfl) hf.1.1)
  | ⟨m, a⟩ :: fs, ⟨n, b⟩ :: gs, hf, hg, cs, ds, h => by
    rw [fieldsIdentified, Bool.and_eq_true, Bool.and_eq_true] at hf hg
    rw [closing_cons, closing_cons, List.append_assoc, List.append_assoc] at h
    -- the names agree, then the layouts, then what follows them
    obtain ⟨hname, hrest⟩ := append_inj_of_identifier (identifier_chars hf.1.1).2
      (identifier_chars hg.1.1).2 (fun c hc => by cases hc; rfl) (fun c hc => by cases hc; rfl) h
    rw [List.cons_append, List.cons_append, List.append_assoc, List.append_assoc] at hrest
    obtain ⟨hab, hbehind⟩ := signature_append_inj a b hf.1.2 hg.1.2 _ _
      (closes_behind fs cs) (closes_behind gs ds) (List.cons.inj hrest).2
    obtain ⟨hfg, hcd⟩ := behind_append_inj fs gs hf.2 hg.2 cs ds hbehind
    rw [String.toList_inj.mp hname, hab, hfg]
    exact ⟨rfl, hcd⟩
termination_by fs => (sizeOf fs, 0)

/-- The remaining fields are told from what follows a field. -/
theorem behind_append_inj : (fs gs : List LayoutField) → fieldsIdentified fs = true →
    fieldsIdentified gs = true → (cs ds : List Char) →
    behind fs ++ cs = behind gs ++ ds → fs = gs ∧ cs = ds
  | [], [], _, _, _, _, h => ⟨rfl, List.append_cancel_left h⟩
  | [], _ :: _, _, _, _, _, h => by cases (List.cons.inj h).1
  | _ :: _, [], _, _, _, _, h => by cases (List.cons.inj h).1
  | f :: fs, g :: gs, hf, hg, cs, ds, h =>
    closing_append_inj (f :: fs) (g :: gs) hf hg cs ds (List.cons.inj h).2
termination_by fs => (sizeOf fs, 1)

end

/-- **Layouts with one signature are one layout.** -/
theorem signature_injective {a b : Layout} (ha : a.identified = true)
    (hb : b.identified = true) (h : a.signature = b.signature) : a = b :=
  (signature_append_inj a b ha hb [] [] nofun nofun (by rw [h])).1

end Layout

end Specimen
