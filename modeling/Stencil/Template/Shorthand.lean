import Stencil.Json.Quote
import Stencil.Template.Marker
import Stencil.Text.Scan

/-!
# Shorthand markers

Some markers are short for output markers that call a function, and become those before a template
is cut into pieces:

* `[[> name ]]` writes the fragment of the name, and `[[> (e) ]]` the fragment whose name is the
  value of `e` (`writeInclusions`);
* `[[@ key ]]` writes the message of the key (`writeMessages`).
-/

namespace Stencil.Template

open Stencil.Text

/-- The function that renders the fragment of a name. -/
def fragmentFunction : String := "__partial"

/-- The function that renders the fragment that a value names. -/
def chosenFragmentFunction : String := "__partial_dynamic"

/-- The function that gives the message of a key. -/
def messageFunction : String := "t"

/-- What stands in a shorthand marker at the front of a text, without the blanks around it, and what
follows the marker.  If the marker holds nothing but blanks, one of them counts as what stands in
it, unless a later close leaves it more. -/
def shorthand? (sigil : Char) (cs : List Char) : Option (List Char × List Char) :=
  match stripFront (opening ++ [sigil]) cs with
  | none => none
  | some inside =>
    let rest := trimStart inside
    match closeMarker rest with
    | some (body, rest) => some (trimEnd body, rest)
    | none =>
      match (inside.takeWhile isBlank).getLast?, stripFront closing rest with
      | some blank, some rest => some ([blank], rest)
      | _, _ => none

/-- Whether a character is a quote sign. -/
def isQuoteSign (c : Char) : Bool := c == '"' || c == '\''

/-- Characters without the quote signs at both ends. -/
def unquoted (cs : List Char) : List Char :=
  ((cs.dropWhile isQuoteSign).reverse.dropWhile isQuoteSign).reverse

/-- The output marker for an inclusion. -/
def inclusion (target : List Char) : List Char :=
  if startsWith ['('] target && endsWith [')'] target then
    "[[- ".toList ++ chosenFragmentFunction.toList ++ target ++ " ]]".toList
  else
    "[[- ".toList ++ fragmentFunction.toList ++ ['('] ++ Json.quoteChars (unquoted target)
      ++ ") ]]".toList

/-- A template with its inclusions written as output markers. -/
def writeInclusions (template : String) : String :=
  String.ofList (replaceMarks (shorthand? '>') inclusion template.toList)

/-- The output marker for a message. -/
def message (key : List Char) : List Char :=
  "[[= ".toList ++ messageFunction.toList ++ ['('] ++ Json.quoteChars key ++ ") ]]".toList

/-- A template with its messages written as output markers. -/
def writeMessages (template : String) : String :=
  String.ofList (replaceMarks (shorthand? '@') message template.toList)

end Stencil.Template
