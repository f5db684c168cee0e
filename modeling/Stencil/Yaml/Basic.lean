/-!
# YAML values

A document is a scalar, a sequence or a mapping.  What a scalar stands for is settled when it is
used, since a text may be wanted where a number stands; but a scalar in quotes is always a text.

* `Yaml` — the values;
* `Fault` — what can be wrong with a text, or with a value where another kind is wanted.

Anchors, aliases, tags, directives and block scalars are not part of the format that is read here.
-/

namespace Stencil

/-- A value of a document. -/
inductive Yaml where
  /-- A text, which is `plain` if it stands without quotes. -/
  | scalar (plain : Bool) (s : String)
  /-- A list of values. -/
  | sequence (items : List Yaml)
  /-- Values under keys, which are values themselves. -/
  | mapping (members : List (Yaml × Yaml))

namespace Yaml

/-- The value where none is written. -/
def absent : Yaml := .scalar true ""

instance : Inhabited Yaml := ⟨absent⟩

/-- What can be wrong. -/
inductive Fault where
  /-- A character that no text may hold. -/
  | character
  /-- A character that cannot begin anything. -/
  | start
  /-- A tab in the place of indentation. -/
  | tab
  /-- A key must stand here, but no colon follows. -/
  | keyColon
  /-- An entry of a sequence cannot stand here. -/
  | entryPlace
  /-- A key cannot stand here. -/
  | keyPlace
  /-- A value cannot stand here. -/
  | valuePlace
  /-- A colon cannot stand here. -/
  | colonPlace
  /-- Quotes are not closed. -/
  | quoteEnd
  /-- The boundary of a document stands between quotes. -/
  | quotedBoundary
  /-- An escape that stands for no character. -/
  | escape
  /-- There is no value here. -/
  | value
  /-- A sequence goes on with something else than an entry. -/
  | entry
  /-- A mapping goes on with something else than a key. -/
  | key
  /-- A comma or a closing bracket is missing. -/
  | comma
  /-- There is more than one document, or something behind the document. -/
  | documents
  /-- The nesting is too deep. -/
  | nesting
  /-- A number is out of range. -/
  | range
  /-- A value is not of the kind that is wanted. -/
  | kind (expected : String)
  /-- A name that is not known. -/
  | unknownField (name : String)
  /-- A name that was given before. -/
  | duplicateField (name : String)
  deriving DecidableEq, Repr

/-- The fault in words. -/
def Fault.message : Fault → String
  | .character => "control characters are not allowed"
  | .start => "found character that cannot start any token"
  | .tab => "found a tab character that violates indentation"
  | .keyColon => "could not find expected ':'"
  | .entryPlace => "block sequence entries are not allowed in this context"
  | .keyPlace => "mapping keys are not allowed in this context"
  | .valuePlace => "mapping values are not allowed in this context"
  | .colonPlace => "found unexpected ':'"
  | .quoteEnd => "found unexpected end of stream"
  | .quotedBoundary => "found unexpected document indicator"
  | .escape => "found unknown escape character"
  | .value => "did not find expected node content"
  | .entry => "did not find expected '-' indicator"
  | .key => "did not find expected key"
  | .comma => "did not find expected ',' or closing bracket"
  | .documents => "more than one document"
  | .nesting => "recursion limit exceeded"
  | .range => "number out of range"
  | .kind expected => "invalid type, expected " ++ expected
  | .unknownField name => "unknown field " ++ name
  | .duplicateField name => "duplicate field " ++ name

end Yaml

end Stencil
