import Specimen.Program.Machine
import Specimen.Text.Cut

/-!
# The blocks of a program

Each declaration is one **block** of code, ended by an empty line. The
functions of this module write a block down from the names it mentions:
those of classes, of the structs of other generators and enumerators,
and its own.
-/

namespace Specimen.Block

/-- The lines that keep a compiler quiet about parameters not used. -/
def unused (names : List String) : List Code := names.map fun n => .line ("(void)" ++ n ++ ";")

/-- The members that hold the parts of a generator or enumerator. -/
def memberLines (letter : String) (members : List String) : List Code :=
  members.zipIdx.map fun m => .line (m.1 ++ " " ++ letter ++ toString m.2 ++ ";")

/-- The member that generates a value. -/
def generateMember (element : String) (body : List Code) : Code :=
  .block ("void generate(" ++ element ++ " &out)") body ""

/-- **The class of a product**, and how its values are written. Fields
are given with their types' names. -/
def productClass (name : String) (fields : List (String × String)) : List Code :=
  [Code.struct name (fields.map fun f => .line (f.2 ++ " " ++ f.1 ++ ";")), .gap,
    .block ("static void qit_write(FILE *f, const " ++ name ++ " &v)")
      ((if fields.isEmpty then unused ["f", "v"] else [])
        ++ fields.map fun f => .line ("qit_write(f, v." ++ f.1 ++ ");")) "",
    .gap]

/-- The generator of a product. -/
def productGenerator (name element : String) (members fields : List String) : List Code :=
  [Code.struct name
      (memberLines "f" members
        ++ [generateMember element
          ((if members.isEmpty then unused ["out"] else [])
            ++ fields.zipIdx.map fun f =>
              .line ("f" ++ toString f.2 ++ ".generate(out." ++ f.1 ++ ");"))]),
    .gap]

/-- The generator of the integers between two bounds. -/
def uniformGenerator (name : String) (min max : Int32) : List Code :=
  [Code.struct name
      [.line ("std::uniform_int_distribution<int> dist\x7b" ++ Value.intLiteral min ++ ", "
          ++ Value.intLiteral max ++ "\x7d;"),
        generateMember "int" [.line "out = dist(qit_rng);"]],
    .gap]

/-- The initializers of a list of values. -/
def valueList (items : List Value) : String := ", ".intercalate (items.map Value.literal)

/-- The constructor that fills in a list of values. -/
def valuesConstructor (name : String) (items : List Value) (rest : String) : Code :=
  .line (name ++ "() : values\x7b" ++ valueList items ++ "\x7d, " ++ rest ++ " \x7b\x7d")

/-- The generator of one of some listed values. -/
def valuesGenerator (name element : String) (items : List Value) : List Code :=
  [Code.struct name
      [.line ("std::vector<" ++ element ++ "> values;"),
        .line "std::uniform_int_distribution<std::size_t> pick;",
        valuesConstructor name items ("pick(0, " ++ toString (items.length - 1) ++ ")"),
        generateMember element [.line "out = values[pick(qit_rng)];"]],
    .gap]

/-- The generator that calls a function, whose parameters' types have
the given names. -/
def callGenerator (name element : String) (members params : List String) (function : String) :
    List Code :=
  [Code.struct name
      (memberLines "a" members
        ++ [generateMember element
          ((params.zipIdx.flatMap fun p =>
              let i := toString p.2
              [.line (p.1 ++ " v" ++ i ++ " = " ++ p.1 ++ "();"),
                .line ("a" ++ i ++ ".generate(v" ++ i ++ ");")])
            ++ [.line ("out = " ++ function ++ "("
              ++ ", ".intercalate ((List.range params.length).map fun i => "v" ++ toString i)
              ++ ");")])]),
    .gap]

/-- The generator that gives a run argument. -/
def argumentGenerator (name element expression : String) : List Code :=
  [Code.struct name [generateMember element [.line ("out = " ++ expression ++ ";")]], .gap]

/-- The enumerator of a range. -/
def rangeEnumerator (name : String) (r : Range) : List Code :=
  [Code.struct name (.line "long long current;" :: (Machine.ofRange r).code "int"), .gap]

/-- The enumerator of some listed values. -/
def valuesEnumerator (name element : String) (items : List Value) : List Code :=
  [Code.struct name
      ([.line ("std::vector<" ++ element ++ "> values;"), .line "std::size_t pos;",
          valuesConstructor name items "pos(0)"]
        ++ Machine.ofValues.code element),
    .gap]

/-- The enumerator of a single generated value. -/
def onceEnumerator (name element member : String) : List Code :=
  [Code.struct name
      ([.line (member ++ " gen;"), .line "bool done;"] ++ Machine.ofGenerator.code element),
    .gap]

/-- The enumerator of a product. -/
def productEnumerator (name element : String) (members fields : List String) : List Code :=
  [Code.struct name
      (memberLines "f" members
        ++ [.line (element ++ " current;"), .line "bool started;", .line "bool finished;"]
        ++ (Machine.ofProduct members.length fields).code element),
    .gap]

/-- **The head of a function**: the name of what it returns, its own, and
its parameters with their types' names. -/
def functionHead (returns name : String) (params : List (String × String)) : String :=
  returns ++ " " ++ name ++ "("
    ++ ", ".intercalate (params.map fun p => "const " ++ p.2 ++ " &" ++ p.1) ++ ")"

/-- A function that is declared only. -/
def prototype (head : String) : List Code := [.line (head ++ ";"), .gap]

/-- A function with its body. -/
def definition (head body : String) : List Code :=
  [.block head ((lines body).map Code.line) "", .gap]

end Specimen.Block
