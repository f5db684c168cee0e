import Stencil.Json.Quote
import Stencil.Template.Marker

/-!
# The routine of a template

The pieces of a template become the source of a routine, one line for each piece, so that a block
may open in one marker and close in a later one:

* `line` — the line of a piece: text and output are added to what was written so far, statements
  stand as they are;
* `generate` — the lines between the start of an empty output and its return;
* `inDataScope` — that source inside a scope in which the members of the data can be named;
* `inGuardedScope` — the same with a scope that refuses names it does not know.
-/

namespace Stencil.Template

/-- The variable that holds what was written so far. -/
def outputName : String := "__out"

/-- The parameter that holds the data. -/
def dataName : String := "data"

/-- The parameter that holds the function that escapes. -/
def escapeName : String := "escapeHTML"

/-- The line of a piece. -/
def line : Piece → String
  | .text s => outputName ++ " += " ++ Json.quote s ++ ";\n"
  | .escaped source => outputName ++ " += " ++ escapeName ++ "(" ++ source ++ ");\n"
  | .raw source => outputName ++ " += (" ++ source ++ ");\n"
  | .code source => source ++ "\n"

/-- The source that writes the pieces in order and returns what was written. -/
def generate (pieces : List Piece) : String :=
  "let " ++ outputName ++ " = \"\";\n" ++ String.join (pieces.map line)
    ++ "return " ++ outputName ++ ";\n"

/-- The source inside a scope that holds the members of the data. -/
def inDataScope (inner : String) : String := "with (" ++ dataName ++ ") \x7b\n" ++ inner ++ "\x7d\n"

/-- The source inside a scope that holds the members of the data and nothing beyond. -/
def inGuardedScope (inner : String) : String :=
  "strict (" ++ dataName ++ ") \x7b\n" ++ inner ++ "\x7d\n"

end Stencil.Template
