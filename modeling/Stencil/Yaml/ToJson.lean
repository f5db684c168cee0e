import Stencil.Decimal.Read
import Stencil.Json.Basic
import Stencil.Yaml.Read

/-!
# JSON values of YAML values

A scalar without quotes stands for the value that its text suggests: nothing, one of the two truth
values, a whole number of base ten, sixteen, eight or two, a number with a point or an exponent, and
otherwise the text itself.

* `Scalar.natural?`, `Scalar.negative?`, `Scalar.real?` — the numbers;
* `Scalar.meaning` — the value of a scalar without quotes;
* `Yaml.toJson` — the value of anything.
-/

namespace Stencil.Yaml

/-- How deep sequences and mappings are nested at most. -/
def nestingLimit : Nat := 128

namespace Scalar

/-- Whether a text stands for no value. -/
def isNull (s : String) : Bool := ["", "~", "null", "Null", "NULL"].contains s

/-- The truth value of a text. -/
def truth? (s : String) : Option Bool :=
  if ["true", "True", "TRUE"].contains s then some true
  else if ["false", "False", "FALSE"].contains s then some false
  else none

/-- Whether a text has a needless zero in front of its digits and nothing else than digits. -/
def isPadded (cs : List Char) : Bool :=
  let digits :=
    match cs with
    | '-' :: rest => rest
    | '+' :: rest => rest
    | rest => rest
  1 < digits.length && digits.head? == some '0' && digits.all Decimal.isDigit

/-- The number of a text without a sign. -/
def magnitude? : List Char → Option Nat
  | '0' :: 'x' :: ds => Text.digitsValue? 16 ds
  | '0' :: 'o' :: ds => Text.digitsValue? 8 ds
  | '0' :: 'b' :: ds => Text.digitsValue? 2 ds
  | ds => if isPadded ds then none else Text.digitsValue? 10 ds

/-- The number of a text that has no sign, or a plus. -/
def natural? : List Char → Option Nat
  | '+' :: cs => magnitude? cs
  | cs => magnitude? cs

/-- The number behind the minus of a text that has one. -/
def negative? : List Char → Option Nat
  | '-' :: cs => magnitude? cs
  | _ => none

/-- What a text in front of which a plus may stand means without it. -/
def unsigned? : List Char → Option (List Char)
  | '+' :: c :: cs => if c = '+' ∨ c = '-' then none else some (c :: cs)
  | cs => some cs

/-- Whether a text names infinity or no number. -/
def isBoundless (s : String) : Bool :=
  [".inf", ".Inf", ".INF", "+.inf", "+.Inf", "+.INF", "-.inf", "-.Inf", "-.INF",
    ".nan", ".NaN", ".NAN"].contains s

/-- The finite number of a text. -/
def real? (cs : List Char) : Option Float :=
  if isPadded cs then none else ((unsigned? cs).bind Decimal.readChars?).filter Float.isFinite

/-- The value of a scalar without quotes. -/
def meaning (s : String) : Except Fault Json :=
  let cs := s.toList
  let otherwise : Json :=
    if isBoundless s then .null
    else
      match real? cs with
      | some x => .number (.real x)
      | none => .text s
  if isNull s then .ok .null
  else
    match truth? s, natural? cs, negative? cs with
    | some b, _, _ => .ok (.bool b)
    | none, some n, _ =>
      if n < Nat.pow 2 64 then .ok (.number (.natural n))
      else if n < Nat.pow 2 128 then .error .range
      else .ok otherwise
    | none, none, some n =>
      if n = 0 then .ok (.number (.natural 0))
      else if n ≤ Nat.pow 2 63 then .ok (.number (.negative n))
      else if n ≤ Nat.pow 2 127 then .error .range
      else .ok otherwise
    | none, none, none => .ok otherwise

end Scalar

/-- The text of a scalar. -/
def text? : Yaml → Option String
  | .scalar _ s => some s
  | _ => none

/-- The text of a scalar, which must be one. -/
def expectText (y : Yaml) : Except Fault String :=
  match y.text? with
  | some s => .ok s
  | none => .error (.kind "a string")

/-- The value of anything that is nested no deeper than this. -/
def toJson : Nat → Yaml → Except Fault Json
  | _, .scalar true s => Scalar.meaning s
  | _, .scalar false s => .ok (.text s)
  | 0, _ => .error .nesting
  | depth + 1, .sequence items => return .array (← items.mapM (toJson depth))
  | depth + 1, .mapping members => do
    return .ofMembers (← members.mapM fun (key, value) => do
      return (← key.expectText, ← toJson depth value))

/-- The value that a text in the YAML format gives. -/
def readJson (s : String) : Except Fault Json := do
  match ← read s with
  | some y => y.toJson nestingLimit
  | none => return .null

end Stencil.Yaml
