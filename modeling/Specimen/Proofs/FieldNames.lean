import Specimen.Proofs.Combining

/-!
# The names of fields

The fields of a product are told apart by their names, and a field
without one is called by its position. Names that are given and names by
position are the same kind of name, so they can be in each other's way: a
field called `_v3` refuses an unnamed one behind it at position 3, and is
refused behind one that was there before. The parameters of a function
are named in the same way, though each of them has a name of its own.

Which lists of fields are **accepted** is told without making anything
(`Accepted`), and so is the error of the others: it is about the first
field that does not fit what comes before it (`Refused`). What is made
field by field, and checks each against the names so far, follows both
(`Checks.eq_ok`, `Checks.eq_error`). Products and functions are made in
this way: `Product.ofFields_exact`.
-/

namespace Specimen

/-- **The fields as they are called**: one without a name is called by its
position. -/
def resolve (fields : List (Option String × Ty)) : List (String × Ty) :=
  fields.mapIdx fun i f => (f.1.getD (autoName i), f.2)

/-- **Fields that fit together**, and what they are of, which may have a
name as well. -/
structure Accepted (owner : Option String) (fields : List (Option String × Ty)) : Prop where
  /-- What the fields are of has an identifier for a name, if any. -/
  owner : owner.all isIdentifier = true
  /-- Each field has an identifier for a name, if any. -/
  identifiers : ∀ f ∈ fields, f.1.all isIdentifier = true
  /-- No two fields are called the same. -/
  distinct : ((resolve fields).map Prod.fst).Nodup

/-- **Why a field does not fit** behind others. -/
inductive FieldRefused (label : String) (before : List (Option String × Ty))
    (f : Option String × Ty) : Error → Prop where
  /-- Its name is no identifier. -/
  | invalid {n : String} (name : f.1 = some n) (bad : isIdentifier n = false) :
      FieldRefused label before f (.invalidName n)
  /-- What it is called is taken. -/
  | taken (h : f.1.getD (autoName before.length) ∈ (resolve before).map Prod.fst) :
      FieldRefused label before f (.duplicateField label (f.1.getD (autoName before.length)))

/-- **Why fields do not fit together**: the name of what they are of is no
identifier, or else some field is the first that does not fit. -/
inductive Refused (owner : Option String) (label : String)
    (fields : List (Option String × Ty)) : Error → Prop where
  /-- The name of what the fields are of is no identifier. -/
  | owner {n : String} (name : owner = some n) (bad : isIdentifier n = false) :
      Refused owner label fields (.invalidName n)
  /-- A field does not fit behind those before it. -/
  | field {before after : List (Option String × Ty)} {f : Option String × Ty} {e : Error}
      (split : fields = before ++ f :: after) (accepted : Accepted owner before)
      (refused : FieldRefused label before f e) : Refused owner label fields e

/-! ## What fields are called -/

theorem resolve_concat (fields : List (Option String × Ty)) (f : Option String × Ty) :
    resolve (fields ++ [f]) = resolve fields ++ [(f.1.getD (autoName fields.length), f.2)] :=
  List.mapIdx_concat

theorem length_resolve (fields : List (Option String × Ty)) :
    (resolve fields).length = fields.length := List.length_mapIdx

theorem resolve_named (fields : List (String × Ty)) :
    resolve (fields.map fun f => (some f.1, f.2)) = fields := by
  induction fields using List.reverseRecOn with
  | nil => rfl
  | append_singleton fields f ih =>
    rw [List.map_append, List.map_singleton, resolve_concat, ih]
    rfl

/-- Without fields there is nothing but an owner to be accepted. -/
theorem accepted_nil {owner : Option String} :
    Accepted owner [] ↔ owner.all isIdentifier = true :=
  ⟨Accepted.owner, fun h => ⟨h, nofun, .nil⟩⟩

/-- **One more field is accepted** if its name is an identifier and what
it is called is new. This is what makes a fold that adds fields one by one
accept a whole list. -/
theorem accepted_concat {owner : Option String} {fields : List (Option String × Ty)}
    {f : Option String × Ty} :
    Accepted owner (fields ++ [f]) ↔ Accepted owner fields ∧ f.1.all isIdentifier = true ∧
      f.1.getD (autoName fields.length) ∉ (resolve fields).map Prod.fst := by
  have hdistinct : ((resolve (fields ++ [f])).map Prod.fst).Nodup ↔
      f.1.getD (autoName fields.length) ∉ (resolve fields).map Prod.fst ∧
        ((resolve fields).map Prod.fst).Nodup := by
    rw [resolve_concat, List.map_append, List.map_singleton, ← List.concat_eq_append,
      List.nodup_concat]
  constructor
  · intro h
    obtain ⟨hnew, hbefore⟩ := hdistinct.mp h.distinct
    exact ⟨⟨h.owner, fun g hg => h.identifiers g (List.mem_append_left _ hg), hbefore⟩,
      h.identifiers f (List.mem_append_right _ List.mem_cons_self), hnew⟩
  · rintro ⟨h, hname, hnew⟩
    refine ⟨h.owner, fun g hg => ?_, hdistinct.mpr ⟨hnew, h.distinct⟩⟩
    rcases List.mem_append.mp hg with hg | hg
    · exact h.identifiers g hg
    · rw [List.mem_singleton.mp hg]
      exact hname

theorem Accepted.isIdentifier {owner : Option String} {fields : List (Option String × Ty)}
    (h : Accepted owner fields) {name : String} (hname : name ∈ (resolve fields).map Prod.fst) :
    isIdentifier name = true := by
  obtain ⟨i, hi, rfl⟩ := List.mem_map.mp hname
  obtain ⟨k, hk, rfl⟩ := List.mem_mapIdx.mp hi
  exact Product.isIdentifier_getD (h.identifiers _ (List.getElem_mem hk)) k

/-! ## Checking fields one by one -/

theorem checkIdentifier_eq_error {name : String} {e : Error} :
    checkIdentifier name = .error e ↔ isIdentifier name = false ∧ e = .invalidName name := by
  unfold checkIdentifier
  cases isIdentifier name with
  | true => exact ⟨nofun, nofun⟩
  | false => exact ⟨fun h => ⟨rfl, (Except.error.inj h).symm⟩, fun h => h.2 ▸ rfl⟩

/-- A start that checks the name of what is made, if it has one. -/
def checkedOwner {β : Type} (owner : Option String) (b : β) : Except Error β := do
  if let some n := owner then checkIdentifier n
  pure b

theorem checkedOwner_eq_ok {β : Type} {owner : Option String} {b b' : β} :
    checkedOwner owner b = .ok b' ↔ owner.all isIdentifier = true ∧ b' = b := by
  cases owner with
  | none => exact pure_eq_ok.trans (eq_comm.trans (and_iff_right rfl).symm)
  | some n =>
    refine bind_eq_ok.trans ⟨?_, ?_⟩
    · rintro ⟨_, hname, h⟩
      exact ⟨checkIdentifier_eq_ok.mp hname, (pure_eq_ok.mp h).symm⟩
    · rintro ⟨hname, rfl⟩
      exact ⟨(), checkIdentifier_eq_ok.mpr hname, rfl⟩

theorem checkedOwner_eq_error {β : Type} {owner : Option String} {b : β} {e : Error} :
    checkedOwner owner b = .error e ↔
      ∃ n, owner = some n ∧ isIdentifier n = false ∧ e = .invalidName n := by
  cases owner with
  | none => exact ⟨nofun, nofun⟩
  | some n =>
    refine bind_eq_error.trans ⟨?_, ?_⟩
    · rintro (h | ⟨_, -, h⟩)
      · exact ⟨n, rfl, checkIdentifier_eq_error.mp h⟩
      · cases h
    · rintro ⟨_, hn, h⟩
      cases hn
      exact .inl (checkIdentifier_eq_error.mpr h)

/-- **Something is made by checking one field after another**: from a start
that checks the owner, by steps that check each field against those before
it. What is `made` is told from the fields alone, once they are
accepted. -/
structure Checks {α β : Type} (owner : Option String) (label : String)
    (field : α → Option String × Ty) (start : Except Error β) (step : β → α → Except Error β)
    (made : List α → β) : Prop where
  /-- The start is right if the owner is accepted. -/
  start_ok {b : β} : start = .ok b ↔ owner.all isIdentifier = true ∧ b = made []
  /-- Otherwise the owner's name is at fault. -/
  start_error {e : Error} :
    start = .error e ↔ ∃ n, owner = some n ∧ isIdentifier n = false ∧ e = .invalidName n
  /-- A step is right if the field is accepted behind those before it. -/
  step_ok {before : List α} {a : α} {b : β} :
    step (made before) a = .ok b ↔ (field a).1.all isIdentifier = true ∧
      (field a).1.getD (autoName before.length) ∉ (resolve (before.map field)).map Prod.fst ∧
      b = made (before ++ [a])
  /-- Otherwise the field's name is at fault. -/
  step_error {before : List α} {a : α} {e : Error} (h : Accepted owner (before.map field)) :
    step (made before) a = .error e ↔ FieldRefused label (before.map field) (field a) e

namespace Checks

variable {α β : Type} {owner : Option String} {label : String} {field : α → Option String × Ty}
  {start : Except Error β} {step : β → α → Except Error β} {made : List α → β}

/-- **What is made of accepted fields.** -/
theorem eq_ok (h : Checks owner label field start step made) {items : List α} {b : β} :
    start >>= items.foldlM step = .ok b ↔ Accepted owner (items.map field) ∧ b = made items := by
  induction items using List.reverseRecOn generalizing b with
  | nil =>
    have hnil : start >>= ([] : List α).foldlM step = start := bind_pure start
    rw [hnil, h.start_ok, List.map_nil, accepted_nil]
  | append_singleton items a ih =>
    have hlast : start >>= (items ++ [a]).foldlM step
        = (start >>= items.foldlM step) >>= fun b => step b a := by
      rw [bind_assoc]
      refine bind_congr fun b => ?_
      rw [List.foldlM_append]
      exact bind_congr fun b => bind_pure _
    rw [hlast, bind_eq_ok, List.map_append, List.map_singleton, accepted_concat, List.length_map]
    constructor
    · rintro ⟨b', hbefore, hstep⟩
      obtain ⟨haccepted, rfl⟩ := ih.mp hbefore
      obtain ⟨hname, hnew, hb⟩ := h.step_ok.mp hstep
      exact ⟨⟨haccepted, hname, hnew⟩, hb⟩
    · rintro ⟨⟨haccepted, hname, hnew⟩, hb⟩
      exact ⟨made items, ih.mpr ⟨haccepted, rfl⟩, h.step_ok.mpr ⟨hname, hnew, hb⟩⟩

/-- **The error of fields that are not accepted.** It is that of the first
field that fails, and all before it were accepted, so it can be told
without following the fold. -/
theorem eq_error (h : Checks owner label field start step made) {items : List α} {e : Error} :
    start >>= items.foldlM step = .error e ↔ Refused owner label (items.map field) e := by
  rw [bind_eq_error, h.start_error]
  constructor
  · rintro (⟨n, howner, hbad, rfl⟩ | ⟨b, hstart, hitems⟩)
    · exact .owner howner hbad
    · obtain ⟨before, a, after, b', rfl, hbefore, hstep⟩ := foldlM_eq_error.mp hitems
      obtain ⟨haccepted, rfl⟩ := h.eq_ok.mp (bind_eq_ok.mpr ⟨b, hstart, hbefore⟩)
      exact .field List.map_append haccepted ((h.step_error haccepted).mp hstep)
  · rintro (⟨howner, hbad⟩ | ⟨hsplit, haccepted, hrefused⟩)
    · exact .inl ⟨_, howner, hbad, rfl⟩
    · obtain ⟨before, rest, rfl, rfl, hrest⟩ := List.map_eq_append_iff.mp hsplit
      obtain ⟨a, after, rfl, rfl, rfl⟩ := List.map_eq_cons_iff.mp hrest
      obtain ⟨b, hstart, hbefore⟩ := bind_eq_ok.mp (h.eq_ok.mpr ⟨haccepted, rfl⟩)
      exact .inr ⟨b, hstart, foldlM_eq_error.mpr
        ⟨before, a, after, made before, rfl, hbefore, (h.step_error haccepted).mpr hrefused⟩⟩

end Checks

/-! ## Products -/

namespace Product

theorem ofFields_eq (name : Option String) (fields : List (Option String × Ty)) :
    ofFields name fields
      = checkedOwner name (empty name) >>= fields.foldlM fun p f => p.add f.1 f.2 := by
  cases name with
  | none => rfl
  | some n =>
    rw [ofFields, checkedOwner]
    dsimp only
    cases checkIdentifier n <;> rfl

/-- **Why a field is not added**: its name is no identifier, or the name it
gets is one of those in the product. -/
theorem add_eq_error {p : Product} {name : Option String} {ty : Ty} {e : Error} :
    p.add name ty = .error e ↔
      (∃ n, name = some n ∧ isIdentifier n = false ∧ e = .invalidName n) ∨
      name.all isIdentifier = true ∧ name.getD (autoName p.fields.length) ∈ p.names ∧
        e = .duplicateField p.label (name.getD (autoName p.fields.length)) := by
  have hstep : (if p.hasField (name.getD (autoName p.fields.length)) = true
      then .error (.duplicateField p.label (name.getD (autoName p.fields.length)))
      else .ok (p.push (name.getD (autoName p.fields.length)) ty) : Except Error Product)
        = .error e ↔
      name.getD (autoName p.fields.length) ∈ p.names ∧
        e = .duplicateField p.label (name.getD (autoName p.fields.length)) :=
    refuse_eq_error.trans (and_congr_left' hasField_iff)
  cases name with
  | none => exact hstep.trans ⟨fun h => .inr ⟨rfl, h⟩, fun h => h.elim nofun And.right⟩
  | some n =>
    refine bind_eq_error.trans (or_congr ?_ ?_)
    · rw [checkIdentifier_eq_error]
      exact ⟨fun h => ⟨n, rfl, h⟩, fun ⟨_, hn, h⟩ => Option.some.inj hn ▸ h⟩
    · rw [← hstep]
      exact ⟨fun ⟨_, hname, h⟩ => ⟨checkIdentifier_eq_ok.mp hname, h⟩,
        fun ⟨hname, h⟩ => ⟨(), checkIdentifier_eq_ok.mpr hname, h⟩⟩

/-- **Products are made by checking one field after another.** -/
theorem checks (name : Option String) :
    Checks name (name.getD "(anonymous)") id (checkedOwner name (empty name))
      (fun p f => p.add f.1 f.2) fun fields => ofItems name (resolve fields) where
  start_ok := checkedOwner_eq_ok
  start_error := checkedOwner_eq_error
  step_ok {before f p} := by
    have hlength : (ofItems name (resolve before)).fields.length = before.length := by
      rw [← length_items, items_ofItems, length_resolve]
    rw [List.map_id, id, add_eq_ok, hlength, names_eq_items, items_ofItems, push_ofItems,
      resolve_concat, eq_comm (a := p)]
  step_error {before f e} haccepted := by
    have hlength : (ofItems name (resolve before)).fields.length = before.length := by
      rw [← length_items, items_ofItems, length_resolve]
    rw [List.map_id] at haccepted ⊢
    rw [id, add_eq_error, hlength, names_eq_items, items_ofItems]
    constructor
    · rintro (⟨n, hn, hbad, rfl⟩ | ⟨-, htaken, rfl⟩)
      · exact .invalid hn hbad
      · exact .taken htaken
    · rintro (⟨hn, hbad⟩ | htaken)
      · exact .inl ⟨_, hn, hbad, rfl⟩
      · refine .inr ⟨?_, htaken, rfl⟩
        -- a name that is taken is one of those that were accepted
        cases hname : f.1 with
        | none => rfl
        | some n =>
          rw [hname] at htaken
          exact haccepted.isIdentifier htaken

end Product

/-! ## Functions -/

namespace Function

/-- **A function with some parameters**, added one after another. -/
def ofParams (name : String) (returns : Ty) (body : FunctionBody) (params : List (String × Ty)) :
    Except Error Function :=
  ofBody name returns body >>= params.foldlM fun f p => f.addParam p.1 p.2

variable {f g : Function} {name : String} {ty : Ty}

theorem any_params_iff : f.params.any (·.name == name) = true ↔ name ∈ f.params.map Param.name := by
  rw [List.any_eq_true, List.mem_map]
  exact exists_congr fun p => and_congr_right fun _ => beq_iff_eq

/-- **When a parameter is added**: its name is an identifier and new. -/
theorem addParam_eq_ok : f.addParam name ty = .ok g ↔ isIdentifier name = true ∧
    name ∉ f.params.map Param.name ∧ g = { f with params := f.params ++ [⟨name, ty⟩] } := by
  rw [← any_params_iff]
  refine bind_eq_ok.trans ⟨?_, ?_⟩
  · rintro ⟨_, hname, h⟩
    obtain ⟨hnew, h⟩ := refuse_eq_ok.mp h
    exact ⟨checkIdentifier_eq_ok.mp hname, hnew, (pure_eq_ok.mp h).symm⟩
  · rintro ⟨hname, hnew, rfl⟩
    exact ⟨(), checkIdentifier_eq_ok.mpr hname, refuse_eq_ok.mpr ⟨hnew, rfl⟩⟩

/-- **Why a parameter is not added**: its name is no identifier, or it is
one of those the function has. -/
theorem addParam_eq_error {e : Error} : f.addParam name ty = .error e ↔
    isIdentifier name = false ∧ e = .invalidName name ∨
    isIdentifier name = true ∧ name ∈ f.params.map Param.name ∧
      e = .duplicateField ("parameters of " ++ f.name) name := by
  rw [← any_params_iff]
  refine bind_eq_error.trans (or_congr checkIdentifier_eq_error ⟨?_, ?_⟩)
  · rintro ⟨_, hname, h⟩
    obtain ⟨htaken, he⟩ := refuse_eq_error.mp h
    exact ⟨checkIdentifier_eq_ok.mp hname, htaken, he⟩
  · rintro ⟨hname, htaken, rfl⟩
    exact ⟨(), checkIdentifier_eq_ok.mpr hname, refuse_eq_error.mpr ⟨htaken, rfl⟩⟩

theorem ofBody_eq (name : String) (returns : Ty) (body : FunctionBody) :
    ofBody name returns body = checkedOwner (some name) ⟨name, returns, [], body⟩ := rfl

/-- **Functions are made by checking one parameter after another**, each of
which has a name. -/
theorem checks (name : String) (returns : Ty) (body : FunctionBody) :
    Checks (some name) ("parameters of " ++ name) (fun p : String × Ty => (some p.1, p.2))
      (ofBody name returns body) (fun f p => f.addParam p.1 p.2)
      fun params => ⟨name, returns, params.map fun p => ⟨p.1, p.2⟩, body⟩ where
  start_ok {f} := by
    rw [ofBody_eq, checkedOwner_eq_ok]
    rfl
  start_error {e} := by rw [ofBody_eq, checkedOwner_eq_error]
  step_ok {before p f} := by
    rw [resolve_named, addParam_eq_ok, List.map_map, List.map_append]
    rfl
  step_error {before p e} haccepted := by
    rw [addParam_eq_error, List.map_map]
    constructor
    · rintro (⟨hbad, rfl⟩ | ⟨-, htaken, rfl⟩)
      · exact .invalid rfl hbad
      · refine .taken ?_
        rw [resolve_named]
        exact htaken
    · rintro (⟨hn, hbad⟩ | htaken)
      · cases hn
        exact .inl ⟨hbad, rfl⟩
      · refine .inr ⟨haccepted.isIdentifier htaken, ?_, rfl⟩
        rw [resolve_named] at htaken
        exact htaken

end Function

/-- **Which fields a product can have.** It is made exactly of accepted
fields: the name of the product and those given to fields are identifiers,
and no two fields are called the same, be it by a name or by position. Its
fields are called so, in order, and take their values from their types.
Otherwise the error is about the product's name or the first field that
does not fit. The parameters of a function are accepted and refused as
fields with these names are. -/
theorem Product.ofFields_exact :
    (∀ (name : Option String) (fields : List (Option String × Ty)),
      (∀ p, ofFields name fields = .ok p ↔
        Accepted name fields ∧ p = ofItems name (resolve fields)) ∧
      ∀ e, ofFields name fields = .error e ↔
        Refused name (name.getD "(anonymous)") fields e) ∧
    ∀ (name : String) (returns : Ty) (body : FunctionBody) (params : List (String × Ty)),
      let fields := params.map fun p => (some p.1, p.2)
      (∀ f, Function.ofParams name returns body params = .ok f ↔
        Accepted (some name) fields ∧
          f = ⟨name, returns, (resolve fields).map fun p => ⟨p.1, p.2⟩, body⟩) ∧
      ∀ e, Function.ofParams name returns body params = .error e ↔
        Refused (some name) ("parameters of " ++ name) fields e := by
  refine ⟨fun name fields => ?_, fun name returns body params => ?_⟩
  · have hchecks := Product.checks name
    rw [ofFields_eq]
    refine ⟨fun p => hchecks.eq_ok.trans ?_, fun e => hchecks.eq_error.trans ?_⟩ <;>
      rw [List.map_id]
  · intro fields
    have hchecks := Function.checks name returns body
    refine ⟨fun f => ?_, fun e => hchecks.eq_error⟩
    rw [resolve_named]
    exact hchecks.eq_ok

/-- A name that is given is in the way of a position behind it, and a
position in the way of a name. -/
example :
    Product.ofFields none [(some "_v1", .int), (none, .int)]
        = .error (.duplicateField "(anonymous)" "_v1") ∧
      Product.ofFields (some "P") [(none, .int), (some "_v0", .int)]
        = .error (.duplicateField "P" "_v0") := ⟨by rfl, by rfl⟩

end Specimen
