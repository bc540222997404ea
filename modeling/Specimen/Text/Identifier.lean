/-!
# Identifiers

Products, fields, functions and variables end up as names of a generated
program, so the names a caller chooses are **identifiers**: an ASCII
letter or an underscore, then letters, digits and underscores. A field
that is given no name is called by its position (`autoName`), and such
a name is always an identifier.
-/

namespace Specimen

/-- The characters an identifier starts with. -/
def startsIdentifier (c : Char) : Bool := c.isAlpha || c == '_'

/-- The characters an identifier goes on with. -/
def continuesIdentifier (c : Char) : Bool := c.isAlphanum || c == '_'

/-- **Identifiers**: `[A-Za-z_][A-Za-z0-9_]*`. -/
def isIdentifier (name : String) : Bool :=
  match name.toList with
  | [] => false
  | c :: rest => startsIdentifier c && rest.all continuesIdentifier

/-- The name of a field that was given none, from its position. -/
def autoName (index : Nat) : String := "_v" ++ toString index

theorem isIdentifier_of_toList {name : String} {c : Char} {rest : List Char}
    (h : name.toList = c :: rest) :
    isIdentifier name = (startsIdentifier c && rest.all continuesIdentifier) := by
  simp [isIdentifier, h]

end Specimen
