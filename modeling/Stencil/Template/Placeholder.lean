import Stencil.Text.Letter
import Stencil.Text.Scan

/-!
# Placeholders in messages

A placeholder of a message is a word in braces.  `placeholders` cuts a message into its characters
and placeholders, and `fillPlaceholder` is what becomes of a placeholder, which stays as it is
written if nothing has its name.
-/

namespace Stencil.Template

/-- The word of a placeholder at the front of a text and what follows the placeholder. -/
def placeholder? : List Char → Option (String × List Char)
  | '\x7b' :: cs =>
    let word := cs.takeWhile Text.isWord
    match cs.dropWhile Text.isWord with
    | '\x7d' :: rest => if word.isEmpty then none else some (String.ofList word, rest)
    | _ => none
  | _ => none

/-- The characters and placeholders of a message. -/
def placeholders (message : String) : List (Char ⊕ String) :=
  Text.scan placeholder? message.toList

/-- A placeholder as it is written. -/
def writtenPlaceholder (word : String) : String := "\x7b" ++ word ++ "\x7d"

/-- What becomes of a placeholder, given what has its name. -/
def fillPlaceholder (word : String) (found : Option String) : String :=
  found.getD (writtenPlaceholder word)

end Stencil.Template
