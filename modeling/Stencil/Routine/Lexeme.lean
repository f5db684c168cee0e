import Stencil.Decimal.Text

/-!
# Lexemes of the routine language

The source of a routine is a row of lexemes: numbers, strings, names and punctuators.

* `Punctuator` — the thirty-nine signs, with their spelling;
* `Lexeme`, `Token` — what stands in a source, and on which line;
* `SyntaxFault`, `SyntaxError` — what can be wrong with a source, and where.
-/

namespace Stencil.Routine

/-- A sign of the routine language. -/
inductive Punctuator where
  | strictEqual
  | strictUnequal
  | spread
  | arrow
  | equal
  | unequal
  | atMost
  | atLeast
  | both
  | either
  | fallback
  | optionalDot
  | addTo
  | takeFrom
  | multiplyBy
  | divideBy
  | reduceBy
  | increment
  | decrement
  | openParen
  | closeParen
  | openBrace
  | closeBrace
  | openBracket
  | closeBracket
  | comma
  | semicolon
  | colon
  | dot
  | question
  | plus
  | minus
  | star
  | slash
  | percent
  | less
  | greater
  | becomes
  | exclamation
  deriving DecidableEq, Repr

namespace Punctuator

/-- How a sign is written. -/
def spelling : Punctuator → List Char
  | .strictEqual => ['=', '=', '=']
  | .strictUnequal => ['!', '=', '=']
  | .spread => ['.', '.', '.']
  | .arrow => ['=', '>']
  | .equal => ['=', '=']
  | .unequal => ['!', '=']
  | .atMost => ['<', '=']
  | .atLeast => ['>', '=']
  | .both => ['&', '&']
  | .either => ['|', '|']
  | .fallback => ['?', '?']
  | .optionalDot => ['?', '.']
  | .addTo => ['+', '=']
  | .takeFrom => ['-', '=']
  | .multiplyBy => ['*', '=']
  | .divideBy => ['/', '=']
  | .reduceBy => ['%', '=']
  | .increment => ['+', '+']
  | .decrement => ['-', '-']
  | .openParen => ['(']
  | .closeParen => [')']
  | .openBrace => ['\x7b']
  | .closeBrace => ['\x7d']
  | .openBracket => ['[']
  | .closeBracket => [']']
  | .comma => [',']
  | .semicolon => [';']
  | .colon => [':']
  | .dot => ['.']
  | .question => ['?']
  | .plus => ['+']
  | .minus => ['-']
  | .star => ['*']
  | .slash => ['/']
  | .percent => ['%']
  | .less => ['<']
  | .greater => ['>']
  | .becomes => ['=']
  | .exclamation => ['!']

/-- How a sign is written, as a text. -/
def text (p : Punctuator) : String := String.ofList p.spelling

/-- The signs, the longer ones first, so that the first that fits is the longest that fits. -/
def all : List Punctuator :=
  [.strictEqual, .strictUnequal, .spread, .arrow, .equal, .unequal, .atMost, .atLeast, .both,
    .either, .fallback, .optionalDot, .addTo, .takeFrom, .multiplyBy, .divideBy, .reduceBy,
    .increment, .decrement, .openParen, .closeParen, .openBrace, .closeBrace, .openBracket,
    .closeBracket, .comma, .semicolon, .colon, .dot, .question, .plus, .minus, .star, .slash,
    .percent, .less, .greater, .becomes, .exclamation]

/-- Whether the sign opens a bracket of any kind. -/
def opens (p : Punctuator) : Bool := p == .openParen || p == .openBracket || p == .openBrace

/-- Whether the sign closes a bracket of any kind. -/
def closes (p : Punctuator) : Bool := p == .closeParen || p == .closeBracket || p == .closeBrace

theorem spelling_ne_nil (p : Punctuator) : p.spelling ≠ [] := by cases p <;> decide

theorem mem_all (p : Punctuator) : p ∈ all := by cases p <;> decide

end Punctuator

/-- What stands in a source. -/
inductive Lexeme where
  /-- A number. -/
  | number (x : Float)
  /-- A string, with its escapes resolved. -/
  | text (s : String)
  /-- A name or a word of the language. -/
  | name (s : String)
  /-- A sign. -/
  | sign (p : Punctuator)
  deriving DecidableEq

/-- A lexeme and the line it begins on. -/
structure Token where
  /-- The lexeme. -/
  lexeme : Lexeme
  /-- The line, counted from one. -/
  line : Nat
  deriving DecidableEq

/-- The tokens of a source and the line on which it ends. -/
structure Lexed where
  /-- The tokens in order. -/
  tokens : List Token
  /-- The line on which the source ends. -/
  endLine : Nat
  deriving DecidableEq

/-- A lexeme as an error message names it; nothing stands for the end of the source. -/
def describe : Option Lexeme → String
  | none => "end of input"
  | some (.number x) => "number " ++ Decimal.positional x
  | some (.text _) => "string"
  | some (.name s) => "'" ++ s ++ "'"
  | some (.sign p) => "'" ++ p.text ++ "'"

/-- What can be wrong with a source. -/
inductive SyntaxFault where
  /-- A comment has no end. -/
  | openComment
  /-- A string has no end. -/
  | openString
  /-- The digits and points make no number. -/
  | number (text : String)
  /-- The escape gives no character. -/
  | escape
  /-- No lexeme begins with the character. -/
  | character (c : Char)
  /-- Something else was expected. -/
  | expected (what found : String)
  /-- A constant has no value. -/
  | constant (name : String)
  /-- What is assigned to is neither a name nor a member. -/
  | target
  /-- The lexeme cannot name a member. -/
  | memberName (found : String)
  deriving DecidableEq, Repr

/-- The fault in words. -/
def SyntaxFault.message : SyntaxFault → String
  | .openComment => "unterminated comment"
  | .openString => "unterminated string literal"
  | .number text => "invalid number literal '" ++ text ++ "'"
  | .escape => "invalid unicode escape sequence"
  | .character c => "unexpected character '" ++ String.ofList [c] ++ "'"
  | .expected what found => "expected " ++ what ++ " but found " ++ found
  | .constant name => "missing initializer in const declaration '" ++ name ++ "'"
  | .target => "invalid assignment target"
  | .memberName found => "unexpected " ++ found ++ " in object literal"

/-- A fault of a source and its line. -/
structure SyntaxError where
  /-- The line, counted from one. -/
  line : Nat
  /-- What is wrong there. -/
  fault : SyntaxFault
  deriving DecidableEq, Repr

/-- The complaint in words. -/
def SyntaxError.message (e : SyntaxError) : String :=
  "SyntaxError: " ++ e.fault.message ++ " (line " ++ Decimal.naturalText e.line ++ ")"

end Stencil.Routine
