/-!
# Code

The text of a generated program is built as a tree of lines and braced
blocks, so every brace that is opened is closed. Rendering only adds
the indentation, two spaces for each block around a line.

A program that grows is written on a **sheet**, line by line: a sheet
knows how many blocks are open, and nothing of the code before. Writing
code closes every block that it opens, and adds what rendering it gives
(`Sheet.writeAll_eq`).
-/

namespace Specimen

/-- **Code**: lines, and blocks in braces. -/
inductive Code where
  /-- A line. -/
  | line (text : String)
  /-- A head, a body in braces, and what stands behind the closing
  brace. -/
  | block (head : String) (body : List Code) (tail : String)

namespace Code

/-- A line at a depth of nesting. -/
def indented (depth : Nat) (text : String) : String :=
  String.ofList (List.replicate (2 * depth) ' ') ++ text ++ "\n"

mutual

/-- The text of code at a depth of nesting. -/
def renderAt (depth : Nat) : Code → String
  | .line text => indented depth text
  | .block head body tail =>
    indented depth (head ++ " \x7b") ++ renderAllAt (depth + 1) body
      ++ indented depth ("\x7d" ++ tail)

/-- The text of codes one after another. -/
def renderAllAt (depth : Nat) : List Code → String
  | [] => ""
  | c :: rest => renderAt depth c ++ renderAllAt depth rest

end

/-- **The text of code** outside of any block. -/
def render (code : List Code) : String := renderAllAt 0 code

/-- An empty line. -/
def gap : Code := .line ""

/-- A block that ends a definition of a type. -/
def struct (name : String) (body : List Code) : Code := .block ("struct " ++ name) body ";"

@[simp] theorem renderAllAt_append (depth : Nat) (a b : List Code) :
    renderAllAt depth (a ++ b) = renderAllAt depth a ++ renderAllAt depth b := by
  induction a with
  | nil => simp [renderAllAt]
  | cons c rest ih => simp [renderAllAt, ih, String.append_assoc]

theorem render_append (a b : List Code) : render (a ++ b) = render a ++ render b :=
  renderAllAt_append 0 a b

end Code

/-! ## Writing line by line -/

/-- **A sheet**: the text written, and the number of open blocks. -/
structure Sheet where
  /-- What is written. -/
  text : String
  /-- How many blocks are open. -/
  depth : Nat

namespace Sheet

/-- The sheet on which nothing is written. -/
def blank : Sheet := ⟨"", 0⟩

/-- Writes a line inside the open blocks. -/
def line (w : Sheet) (text : String) : Sheet := ⟨w.text ++ Code.indented w.depth text, w.depth⟩

/-- Writes the head of a block and opens it. -/
def openBlock (w : Sheet) (head : String) : Sheet :=
  let w := w.line (head ++ " \x7b")
  ⟨w.text, w.depth + 1⟩

/-- Closes the innermost block, and writes what stands behind it. -/
def closeBlock (w : Sheet) (tail : String) : Sheet :=
  line ⟨w.text, w.depth - 1⟩ ("\x7d" ++ tail)

mutual

/-- Writes code. -/
def write : Sheet → Code → Sheet
  | w, .line text => w.line text
  | w, .block head body tail => ((w.openBlock head).writeAll body).closeBlock tail

/-- Writes codes one after another. -/
def writeAll : Sheet → List Code → Sheet
  | w, [] => w
  | w, c :: rest => (w.write c).writeAll rest

end

mutual

/-- Writing code adds its text and leaves the open blocks as they are. -/
theorem write_eq : (w : Sheet) → (c : Code) →
    w.write c = ⟨w.text ++ Code.renderAt w.depth c, w.depth⟩
  | w, .line text => by
    rw [write, Code.renderAt]
    rfl
  | w, .block head body tail => by
    rw [write, writeAll_eq, Code.renderAt, ← String.append_assoc, ← String.append_assoc]
    rfl

/-- **Writing codes adds their text**, and closes the blocks that it
opens. -/
theorem writeAll_eq : (w : Sheet) → (code : List Code) →
    w.writeAll code = ⟨w.text ++ Code.renderAllAt w.depth code, w.depth⟩
  | w, [] => by
    rw [writeAll, Code.renderAllAt, String.append_empty]
  | w, c :: rest => by
    rw [writeAll, write_eq, writeAll_eq, Code.renderAllAt, ← String.append_assoc]

end

end Sheet

end Specimen
