/-!
# Tables sorted by name

Run arguments and the overrides of a derived product are tables from
names to things, shown in the order of the names. A `NameTable` is the
list of its entries, kept sorted by `insert`, so two tables with the
same entries are the same list.
-/

namespace Specimen

/-- **A table sorted by name.** -/
abbrev NameTable (α : Type) := List (String × α)

namespace NameTable

variable {α : Type}

/-- What the table holds under a name. -/
def find? (name : String) : NameTable α → Option α
  | [] => none
  | (n, a) :: rest => if n == name then some a else find? name rest

/-- Puts an entry at its place, instead of one of the same name. -/
def insert (name : String) (a : α) : NameTable α → NameTable α
  | [] => [(name, a)]
  | (n, b) :: rest =>
    if name < n then (name, a) :: (n, b) :: rest
    else if n == name then (name, a) :: rest
    else (n, b) :: insert name a rest

/-- The table of some entries, the last of each name kept. -/
def ofList (entries : List (String × α)) : NameTable α :=
  entries.foldl (fun table e => insert e.1 e.2 table) []

@[simp] theorem find?_nil (name : String) : find? name ([] : NameTable α) = none := rfl

/-- An entry just put in is found. -/
@[simp] theorem find?_insert_self (name : String) (a : α) (t : NameTable α) :
    find? name (insert name a t) = some a := by
  induction t with
  | nil => simp [insert, find?]
  | cons e rest ih =>
    obtain ⟨n, b⟩ := e
    unfold insert
    split
    · simp [find?]
    · split
      · simp [find?]
      · next h => simpa [find?, h] using ih

/-- What a table holds under other names is not touched. -/
theorem find?_insert_of_ne {name other : String} (h : other ≠ name) (a : α) (t : NameTable α) :
    find? other (insert name a t) = find? other t := by
  induction t with
  | nil => simp [insert, find?, h.symm]
  | cons e rest ih =>
    obtain ⟨n, b⟩ := e
    unfold insert
    split
    · simp [find?, h.symm]
    · split
      · next _ hn =>
        have hn : n = name := by simpa using hn
        subst hn
        simp [find?, h.symm]
      · simp [find?, ih]

end NameTable

end Specimen
