/-!
# Quoted strings

A string of a JSON text stands between double quotes.  The quote, the backslash and the control
characters are written as escapes, and everything else stands for itself:

* `quoteChar` — a character between the quotes;
* `quote` — a whole string with its quotes.
-/

namespace Stencil.Json

/-- The hexadecimal digit of a number below sixteen, in small letters. -/
def hexDigit (n : Nat) : Char := if n < 10 then Char.ofNat (48 + n) else Char.ofNat (87 + n)

/-- A character as it stands between the quotes. -/
def quoteChar (c : Char) : List Char :=
  if c = '"' then ['\\', '"']
  else if c = '\\' then ['\\', '\\']
  else if 32 ≤ c.toNat then [c]
  else if c = '\n' then ['\\', 'n']
  else if c = '\t' then ['\\', 't']
  else if c = '\r' then ['\\', 'r']
  else if c = '\x08' then ['\\', 'b']
  else if c = '\x0c' then ['\\', 'f']
  else ['\\', 'u', '0', '0', hexDigit (c.toNat / 16), hexDigit (c.toNat % 16)]

/-- The characters of a quoted string with its quotes. -/
def quoteChars (cs : List Char) : List Char := ['"'] ++ cs.flatMap quoteChar ++ ['"']

/-- A text as a quoted string. -/
def quote (s : String) : String := String.ofList (quoteChars s.toList)

end Stencil.Json
