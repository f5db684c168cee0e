/-!
# Escaped text

Text that is to stand inside a page must not be read as markup, so the five characters that markup
is made of are written as entities:

* `escapeChar` — the entity of a character, or the character itself;
* `escape` — a text with every character escaped once.
-/

namespace Stencil.Text

/-- The text that stands for one character: an entity for `&`, `<`, `>` and the two quotes. -/
def escapeChar : Char → List Char
  | '&' => ['&', 'a', 'm', 'p', ';']
  | '<' => ['&', 'l', 't', ';']
  | '>' => ['&', 'g', 't', ';']
  | '"' => ['&', 'q', 'u', 'o', 't', ';']
  | '\'' => ['&', '#', '3', '9', ';']
  | c => [c]

/-- The characters of a text, each escaped. -/
def escapeChars (cs : List Char) : List Char := cs.flatMap escapeChar

/-- A text with its markup characters as entities. -/
def escape (s : String) : String := String.ofList (escapeChars s.toList)

@[simp] theorem escapeChars_nil : escapeChars [] = [] := rfl

@[simp] theorem escapeChars_cons (c : Char) (cs : List Char) :
    escapeChars (c :: cs) = escapeChar c ++ escapeChars cs := by
  simp [escapeChars]

theorem escapeChars_append (cs ds : List Char) :
    escapeChars (cs ++ ds) = escapeChars cs ++ escapeChars ds := by
  simp [escapeChars]

end Stencil.Text
