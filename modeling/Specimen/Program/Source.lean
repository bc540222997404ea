import Specimen.Program.Emission

/-!
# The source of a program

The whole source of a program for a target is a fixed beginning, the
declarations, the files of the external functions that are declared,
and a `main` that writes one value of the target to a pipe. The two
pipes, for reports and for output, are the program's arguments.
-/

namespace Specimen

namespace Program

/-! ## Files of external functions -/

/-- Puts a path into a list of paths ordered by components. A path that
is there already keeps its spelling. -/
def insertPath (path : String) : List String → List String
  | [] => [path]
  | p :: rest =>
    if Path.same path p then p :: rest
    else if Path.componentsLt (Path.components path) (Path.components p) then path :: p :: rest
    else p :: insertPath path rest

/-- The functions declared, in order. -/
def functions (s : Program) : List Function :=
  s.declarations.filterMap fun d =>
    match d.key with
    | .function f => some f
    | _ => none

/-- **The files to include**: those of the external functions declared,
in the order of paths. -/
def includes (s : Program) : List String :=
  (s.functions.filterMap fun f => f.sourcePath? s.workingDir s.sourceDir).foldl
    (fun paths path => insertPath path paths) []

/-- A path inside a string literal. -/
def escapePath (path : String) : String :=
  String.join (path.toList.map fun c =>
    if c == '\\' then "\\\\" else if c == '"' then "\\\"" else c.toString)

/-- The lines that include files, and an empty line if there are
any. -/
def includeCode (paths : List String) : List Code :=
  if paths.isEmpty then []
  else paths.map (fun p => .line ("#include \"" ++ escapePath p ++ "\"")) ++ [.gap]

/-! ## The fixed parts -/

/-- What every program begins with. -/
def preamble : List Code :=
  ["cstddef", "cstdio", "cstdlib", "random", "vector"].map
      (fun header => .line ("#include <" ++ header ++ ">"))
    ++ [.gap,
      .line "static FILE *qit_report_file = NULL;",
      .line "static FILE *qit_output_file = NULL;",
      .line "static std::mt19937 qit_rng(std::random_device\x7b\x7d());",
      .gap,
      .block "static void qit_report(const char *tag, const char *args)"
        [.block "if (qit_report_file == NULL)" [.line "return;"] "",
          .line "std::fprintf(qit_report_file, \"%s %s\\n\", tag, args);"] "",
      .gap,
      .block "static void qit_write(FILE *f, int v)"
        [.line "std::fwrite(&v, sizeof v, 1, f);"] "",
      .gap]

/-- Opens the pipe that an argument names. -/
def openPipe (file argument mode : String) : List Code :=
  [.line (file ++ " = std::fopen(" ++ argument ++ ", \"" ++ mode ++ "\");"),
    .block ("if (" ++ file ++ " == NULL)")
      [.line ("std::perror(" ++ argument ++ ");"), .line "return 3;"] ""]

/-- Writes the value of a target. An enumerator may have none. -/
def writeTarget : Target → List Code
  | .generator _ => [.line "target.generate(value);", .line "qit_write(qit_output_file, value);"]
  | .enumerator _ =>
    [.line "target.reset();",
      .block "if (target.next(value))" [.line "qit_write(qit_output_file, value);"] ""]

/-- The `main` of a program, from the names of the target's struct and
of the type of its value. -/
def mainCode (t : Target) (element handle : String) : Code :=
  .block "int main(int argc, char **argv)"
    ([.block "if (argc != 3)"
        [.line "std::fprintf(stderr, \"usage: %s REPORT_PIPE OUTPUT_PIPE\\n\", argv[0]);",
          .line "return 2;"] ""]
      ++ openPipe "qit_report_file" "argv[1]" "w"
      ++ [.line "std::setvbuf(qit_report_file, NULL, _IOLBF, BUFSIZ);"]
      ++ openPipe "qit_output_file" "argv[2]" "wb"
      ++ [.line ("static " ++ handle ++ " target;"),
        .line (element ++ " value = " ++ element ++ "();")]
      ++ writeTarget t
      ++ [.line "std::fclose(qit_output_file);", .line "std::fclose(qit_report_file);",
        .line "return 0;"]) ""

/-! ## The source -/

/-- The code of the declarations, in order. -/
def declarationCode (s : Program) : List Code := s.declarations.flatMap Declaration.code

/-- The source around a target that is declared. -/
def sourceAround (s : Program) (t : Target) (element handle : String) : String :=
  Code.render preamble ++ s.sheet.text
    ++ Code.render (includeCode s.includes ++ [mainCode t element handle])

/-- The name of a target's struct, declared if need be. -/
def askTarget (s : Program) : Target → String × Program
  | .generator g => s.askGenerator g
  | .enumerator e => s.askEnumerator e

/-- **Completes a program for a target.** Arguments that do not fit the
target are refused and leave the program as it was; otherwise the
target is declared under these arguments, and the source is given back
with the program, which keeps what was declared. -/
def collect (s : Program) (t : Target) (args : RunArgs) : Except Error (String × Program) := do
  t.checkArgs args
  let s := emitAll t.calls { s with args := args }
  let (element, s) := s.askType t.elementType
  let (handle, s) := s.askTarget t
  pure (s.sourceAround t element handle, s)

/-- The source of a program of its own for a target. -/
def sourceOf (workingDir sourceDir : String) (t : Target) (args : RunArgs) :
    Except Error String :=
  (·.1) <$> (start workingDir sourceDir).collect t args

end Program

end Specimen
