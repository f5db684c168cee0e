import Stencil.Proofs.Reading.Tokens

/-!
# Printed expressions

An expression is printed as a row of marks parted by spaces, with parentheses only where an operand
binds more loosely than its place allows.

* `Numeral`, `Word` — literals and names that stand for themselves;
* `Term`, `Place` — expressions, and among them what a value can be given to;
* `Term.expr` — the tree that an expression is for the parser;
* `Term.level` — how tightly an expression binds;
* `Mark`, `Term.marks` — what is written, one mark for each token;
* `Term.print` — the text of an expression;
* `lexes_marks` — a row of marks is lexed mark by mark.
-/

namespace Stencil.Printing

open Text Routine Reading

/-! ### Literals and names -/

/-- A row of decimal digits. -/
structure Numeral where
  /-- The digits. -/
  digits : List Char
  /-- There is one. -/
  nonempty : digits ≠ []
  /-- There is nothing else. -/
  decimal : digits.all Decimal.isDigit = true

/-- The number that a numeral writes: the one nearest to the value of the digits behind the leading
zeros. -/
def Numeral.value (n : Numeral) : Float :=
  let ds := n.digits.dropWhile (· == '0')
  Decimal.nearestTo (Decimal.digitsValue ds) ds.length 0

/-- The names that are words of the language where an expression stands. -/
def reservedNames : List String := ["true", "false", "null", "undefined", "typeof"]

/-- A name that is an expression by itself. -/
structure Word extends Identifier where
  /-- The name is no word of the language. -/
  free : String.ofList chars ∉ reservedNames

/-! ### Expressions -/

/-- What a sign between a target and a value does. -/
inductive Assigning where
  | plain
  | add
  | subtract
  | multiply
  | divide
  | remainder
  deriving DecidableEq, Repr

/-- What is computed before the value is given to the target, if anything is. -/
def Assigning.op : Assigning → Option BinaryOp
  | .plain => none
  | .add => some .add
  | .subtract => some .subtract
  | .multiply => some .multiply
  | .divide => some .divide
  | .remainder => some .remainder

mutual

/-- An expression. -/
inductive Term where
  | number (n : Numeral)
  | text (s : String)
  | bool (b : Bool)
  | null
  | undefined
  | place (p : Place)
  | array (items : List Term)
  | object (members : List (String × Term))
  | call (callee : Term) (args : List Term) (optional : Bool)
  | unary (op : UnaryOp) (operand : Term)
  | binary (op : BinaryOp) (left right : Term)
  | logical (op : LogicalOp) (left right : Term)
  | conditional (test yes no : Term)
  | assign (op : Assigning) (target : Place) (value : Term)
  | update (up leading : Bool) (target : Place)
  | arrow (params : List Identifier) (body : Term)

/-- An expression that a value can be given to. -/
inductive Place where
  | name (x : Word)
  | member (object : Term) (property : Identifier) (optional : Bool)
  | index (object key : Term) (optional : Bool)

end

/-! ### Trees -/

mutual

/-- The tree of an expression. -/
def Term.expr : Term → Expr
  | .number n => .number n.value
  | .text s => .text s
  | .bool b => .bool b
  | .null => .null
  | .undefined => .undefined
  | .place p => p.expr
  | .array items => .array (exprsOf items)
  | .object members => .object (membersOf members)
  | .call callee args optional => .call callee.expr (exprsOf args) optional
  | .unary op operand => .unary op operand.expr
  | .binary op left right => .binary op left.expr right.expr
  | .logical op left right => .logical op left.expr right.expr
  | .conditional test yes no => .conditional test.expr yes.expr no.expr
  | .assign op target value => .assign op.op target.expr value.expr
  | .update up leading target => .update up leading target.expr
  | .arrow params body => .arrow 0 (params.map Identifier.name) (.expr body.expr)

/-- The tree of a place. -/
def Place.expr : Place → Expr
  | .name x => .name x.name
  | .member object property optional => .member object.expr property.name optional
  | .index object key optional => .index object.expr key.expr optional

/-- The trees of expressions. -/
def exprsOf : List Term → List Expr
  | [] => []
  | t :: ts => t.expr :: exprsOf ts

/-- The trees of named expressions. -/
def membersOf : List (String × Term) → List (String × Expr)
  | [] => []
  | (name, t) :: members => (name, t.expr) :: membersOf members

end

/-! ### Levels -/

/-- How tightly the sign between two operands binds. -/
def binaryLevel : BinaryOp → Nat
  | .multiply | .divide | .remainder => 16
  | .add | .subtract => 14
  | .less | .atMost | .greater | .atLeast => 12
  | .equal | .unequal | .strictEqual | .strictUnequal => 10

/-- How tightly the sign of a choice between two operands binds. -/
def logicalLevel : LogicalOp → Nat
  | .both => 8
  | .either | .fallback => 6

/-- The level of conditionals. -/
def conditionalLevel : Nat := 5

/-- The level of assignments. -/
def assignLevel : Nat := 3

/-- The level of signs and words in front of an operand. -/
def leadingLevel : Nat := 18

/-- The level of what is selected from an operand, and of an operand that stands for itself. -/
def closeLevel : Nat := 20

/-- The level of functions, which bind more loosely than anything else. -/
def functionLevel : Nat := 2

/-- How tightly an expression binds. -/
def Term.level : Term → Nat
  | .unary _ _ => leadingLevel
  | .binary op _ _ => binaryLevel op
  | .logical op _ _ => logicalLevel op
  | .conditional _ _ _ => conditionalLevel
  | .assign _ _ _ => assignLevel
  | .update _ true _ => leadingLevel
  | .arrow _ _ => functionLevel
  | _ => closeLevel

/-! ### Marks -/

/-- A token as it is written. -/
inductive Mark where
  | number (n : Numeral)
  | text (s : String)
  | name (i : Identifier)
  | sign (p : Punctuator)

/-- How a mark is written. -/
def Mark.chars : Mark → List Char
  | .number n => n.digits
  | .text s => Json.quoteChars s.toList
  | .name i => i.chars
  | .sign p => p.spelling

/-- The lexeme that a mark writes. -/
def Mark.lexeme : Mark → Lexeme
  | .number n => .number n.value
  | .text s => .text s
  | .name i => .name i.name
  | .sign p => .sign p

/-- A word of the language as a mark. -/
def word (s : String) (h : isIdentifier s.toList = true) : Mark := .name ⟨s.toList, h⟩

/-- The name of a member, quoted unless it is a name. -/
def nameMark (s : String) : Mark :=
  if h : isIdentifier s.toList = true then .name ⟨s.toList, h⟩ else .text s

/-- The sign of an operation between two operands. -/
def binarySign : BinaryOp → Punctuator
  | .add => .plus
  | .subtract => .minus
  | .multiply => .star
  | .divide => .slash
  | .remainder => .percent
  | .equal => .equal
  | .unequal => .unequal
  | .strictEqual => .strictEqual
  | .strictUnequal => .strictUnequal
  | .less => .less
  | .atMost => .atMost
  | .greater => .greater
  | .atLeast => .atLeast

/-- The sign of a choice between two operands. -/
def logicalSign : LogicalOp → Punctuator
  | .both => .both
  | .either => .either
  | .fallback => .fallback

/-- The sign or word of an operation in front of an operand. -/
def unaryMark : UnaryOp → Mark
  | .negation => .sign .exclamation
  | .minus => .sign .minus
  | .plus => .sign .plus
  | .kind => word "typeof" (by decide)

/-- The sign between a target and a value. -/
def Assigning.sign : Assigning → Punctuator
  | .plain => .becomes
  | .add => .addTo
  | .subtract => .takeFrom
  | .multiply => .multiplyBy
  | .divide => .divideBy
  | .remainder => .reduceBy

/-- The sign that counts up or down. -/
def countSign (up : Bool) : Punctuator := if up then .increment else .decrement

/-- Marks in parentheses. -/
def enclosed (ms : List Mark) : List Mark := .sign .openParen :: (ms ++ [.sign .closeParen])

/-- The marks of an operand of this level at a place that allows nothing looser than `least`. -/
def fitted (least level : Nat) (ms : List Mark) : List Mark :=
  if level < least then enclosed ms else ms

/-- What is selected, behind the sign of an optional selection if it is one. -/
def optionally (optional : Bool) (ms : List Mark) : List Mark :=
  if optional then .sign .optionalDot :: ms else ms

/-- Rows of marks with commas between them. -/
def listed : List (List Mark) → List Mark
  | [] => []
  | [ms] => ms
  | ms :: mss => ms ++ .sign .comma :: listed mss

section Marks

-- Which bodies of functions are put in parentheses, given their marks.
variable (wraps : Term → List Mark → Bool)

mutual

/-- The marks of an expression. -/
def Term.marks : Term → List Mark
  | .number n => [.number n]
  | .text s => [.text s]
  | .bool true => [word "true" (by decide)]
  | .bool false => [word "false" (by decide)]
  | .null => [word "null" (by decide)]
  | .undefined => [word "undefined" (by decide)]
  | .place p => p.marks
  | .array items => .sign .openBracket :: (listed (itemMarks items) ++ [.sign .closeBracket])
  | .object members => .sign .openBrace :: (listed (memberMarks members) ++ [.sign .closeBrace])
  | .call callee args optional =>
    fitted closeLevel callee.level callee.marks
      ++ optionally optional (enclosed (listed (itemMarks args)))
  | .unary op operand => unaryMark op :: fitted leadingLevel operand.level operand.marks
  | .binary op left right =>
    fitted (binaryLevel op) left.level left.marks
      ++ .sign (binarySign op) :: fitted (binaryLevel op + 1) right.level right.marks
  | .logical op left right =>
    fitted (logicalLevel op) left.level left.marks
      ++ .sign (logicalSign op) :: fitted (logicalLevel op + 1) right.level right.marks
  | .conditional test yes no =>
    fitted (conditionalLevel + 1) test.level test.marks
      ++ .sign .question :: (fitted assignLevel yes.level yes.marks
        ++ .sign .colon :: fitted conditionalLevel no.level no.marks)
  | .assign op target value =>
    target.marks ++ .sign op.sign :: fitted assignLevel value.level value.marks
  | .update up true target => .sign (countSign up) :: target.marks
  | .update up false target => target.marks ++ [.sign (countSign up)]
  | .arrow params body =>
    enclosed (listed (params.map fun i => [.name i])) ++ .sign .arrow
      :: (if wraps body body.marks then enclosed body.marks else body.marks)

/-- The marks of a place. -/
def Place.marks : Place → List Mark
  | .name x => [.name x.toIdentifier]
  | .member object property optional =>
    fitted closeLevel object.level object.marks
      ++ [.sign (if optional then .optionalDot else .dot), .name property]
  | .index object key optional =>
    fitted closeLevel object.level object.marks
      ++ optionally optional (.sign .openBracket :: (key.marks ++ [.sign .closeBracket]))

/-- The marks of each expression. -/
def itemMarks : List Term → List (List Mark)
  | [] => []
  | t :: ts => t.marks :: itemMarks ts

/-- The marks of each named expression. -/
def memberMarks : List (String × Term) → List (List Mark)
  | [] => []
  | (name, t) :: members => (nameMark name :: .sign .colon :: t.marks) :: memberMarks members

end

end Marks

/-- Whether marks begin with a brace. -/
def beginsBrace (ms : List Mark) : Bool := ms.head?.map Mark.lexeme == some (.sign .openBrace)

/-- A body of a function is in parentheses where it begins with a brace. -/
def wrapsBrace (_ : Term) (ms : List Mark) : Bool := beginsBrace ms

/-- The text of marks. -/
def spaced (ms : List Mark) : List Char := List.intercalate [' '] (ms.map Mark.chars)

/-- The text of an expression. -/
def Term.printWith (wraps : Term → List Mark → Bool) (t : Term) : String :=
  String.ofList (spaced (t.marks wraps))

/-- The text of an expression in which no body of a function can be taken for a block. -/
def Term.print (t : Term) : String := t.printWith wrapsBrace

/-! ### Lexing -/

theorem Numeral.readChars (n : Numeral) : Decimal.readChars? n.digits = some n.value := by
  obtain ⟨digits, hnonempty, hdigits⟩ := n
  have hdigit := List.all_eq_true.mp hdigits
  have hspan : Decimal.span digits = (digits, []) := by
    have htake := @List.takeWhile_append_of_pos _ Decimal.isDigit digits [] hdigit
    have hdrop := @List.dropWhile_append_of_pos _ Decimal.isDigit digits [] hdigit
    rw [List.append_nil] at htake hdrop
    rw [Decimal.span]
    rw [htake, hdrop]
    exact congrArg (·, []) (List.append_nil digits)
  have hunsigned : Decimal.readUnsigned? digits
      = some (Numeral.value ⟨digits, hnonempty, hdigits⟩) := by
    have hempty : digits.isEmpty = false := by
      rw [Bool.eq_false_iff, ne_eq, List.isEmpty_iff]
      exact hnonempty
    rw [Decimal.readUnsigned?, hspan]
    dsimp only
    rw [hempty]
    simp [Decimal.readExponent?, Numeral.value]
  rw [Decimal.readChars?]
  · exact hunsigned
  · rintro ds rfl
    exact absurd (hdigit '-' List.mem_cons_self) (by decide)
  · rintro ds rfl
    exact absurd (hdigit '+' List.mem_cons_self) (by decide)

/-- A digit is no blank, and begins no comment, text or name. -/
theorem range_of_isDigit {c : Char} (h : Decimal.isDigit c = true) :
    48 ≤ c.toNat ∧ c.toNat < 58 := by
  rw [Decimal.isDigit, Decimal.digitValue?] at h
  split at h
  · rename_i hn
    exact ⟨hn.1, Nat.lt_succ_of_le hn.2⟩
  · cases h

/-- What may stand behind a mark: a space or the end of a parenthesis. -/
def parts (d : Char) : Bool := d == ' ' || d == ')'

section

variable {d : Char} (hd : parts d = true) (line : Nat) (rest : List Char)
include hd

theorem numberSpan_digits {digits : List Char} (h : digits.all Decimal.isDigit = true) :
    numberSpan (digits ++ d :: rest) = (digits, d :: rest) := by
  have hpart : ∀ c ∈ digits, isNumberPart c = true := by
    intro c hc
    rw [isNumberPart, List.all_eq_true.mp h c hc, Bool.true_or]
  have hstop : isNumberPart d = false := by
    revert hd
    simp only [parts, Bool.or_eq_true, beq_iff_eq]
    rintro (rfl | rfl) <;> decide
  have hexponent : exponentSpan (d :: rest) = ([], d :: rest) := by
    rw [exponentSpan.eq_def]
    dsimp only
    refine if_neg ?_
    revert hd
    simp only [parts, Bool.or_eq_true, beq_iff_eq]
    rintro (rfl | rfl) <;> decide
  have htake : (digits ++ d :: rest).takeWhile isNumberPart = digits := by
    rw [List.takeWhile_append_of_pos hpart, List.takeWhile_cons, hstop]
    exact List.append_nil digits
  have hdrop : (digits ++ d :: rest).dropWhile isNumberPart = d :: rest := by
    rw [List.dropWhile_append_of_pos hpart, List.dropWhile_cons, hstop]
    rfl
  rw [numberSpan, htake, hdrop, hexponent]
  exact congrArg (·, d :: rest) (List.append_nil digits)

/-- A numeral is one token. -/
theorem Numeral.lexes (n : Numeral) :
    Lexes line (n.digits ++ d :: rest) [onLine line (.number n.value)] line (d :: rest) := by
  have hspan := numberSpan_digits hd rest n.decimal
  have hread := n.readChars
  have hnonempty := n.nonempty
  have hdecimal := n.decimal
  generalize n.digits = digits at hspan hread hnonempty hdecimal
  cases digits with
  | nil => exact absurd rfl hnonempty
  | cons c cs =>
    rw [List.all_cons, Bool.and_eq_true] at hdecimal
    have hrange := range_of_isDigit hdecimal.1
    -- What the step asks about the first character, for all ten of them.
    have hall : ∀ n < 58, 48 ≤ n → Char.ofNat n ≠ '\n' ∧ isBlank (Char.ofNat n) = false
        ∧ '/' ≠ Char.ofNat n ∧ '.' ≠ Char.ofNat n := by decide
    have hc := hall c.toNat hrange.2 hrange.1
    rw [Char.ofNat_toNat] at hc
    obtain ⟨hnewline, hblank, hslash, hdot⟩ := hc
    have hcomment (e : Char) : startsWith ['/', e] (c :: (cs ++ d :: rest)) = false := by
      rw [startsWith, stripFront, if_neg hslash]
      rfl
    have hnumber : startsNumber (c :: (cs ++ d :: rest)) = true := by
      rw [startsNumber]
      · exact hdecimal.1
      · rintro e es rfl
        exact absurd rfl hdot
    rw [List.cons_append]
    refine Lexes.token ?_ (by simp)
    rw [step, if_neg hnewline, if_neg (Bool.eq_false_iff.mp hblank),
      if_neg (Bool.eq_false_iff.mp (hcomment '/')), if_neg (Bool.eq_false_iff.mp (hcomment '*')),
      if_pos hnumber]
    rw [List.cons_append] at hspan
    rw [hspan]
    dsimp only
    rw [hread]

/-- Every sign is one token. -/
theorem lexes_spelling (p : Punctuator) :
    Lexes line (p.spelling ++ d :: rest) [onLine line (.sign p)] line (d :: rest) := by
  simp only [parts, Bool.or_eq_true, beq_iff_eq] at hd
  rcases hd with rfl | rfl <;> cases p <;>
    exact Lexes.token rfl (by simp)

/-- Every mark is one token. -/
theorem Mark.lexes (m : Mark) :
    Lexes line (m.chars ++ d :: rest) [onLine line m.lexeme] line (d :: rest) := by
  cases m with
  | number n => exact n.lexes hd line rest
  | text s =>
    have h := Lexes.quoted line s.toList (d :: rest)
    rw [String.ofList_toList] at h
    exact h
  | name i =>
    refine i.lexes line ?_
    rintro c ⟨⟩
    simp only [parts, Bool.or_eq_true, beq_iff_eq] at hd
    rcases hd with rfl | rfl <;> decide
  | sign p => exact lexes_spelling hd line rest p

end

/-- The tokens of marks. -/
def tokensOf (line : Nat) (ms : List Mark) : List Token := ms.map fun m => onLine line m.lexeme

/-- A row of marks is lexed mark by mark. -/
theorem lexes_marks (line : Nat) (ms : List Mark) (rest : List Char) :
    Lexes line (spaced ms ++ ')' :: rest) (tokensOf line ms) line (')' :: rest) := by
  match ms with
  | [] => exact .nil line _
  | [m] =>
    have h := m.lexes (d := ')') rfl line rest
    have htext : spaced [m] = m.chars := by
      simp [spaced]
    rw [htext]
    exact h
  | m :: n :: ms =>
    have hlater := lexes_marks line (n :: ms) rest
    have hfirst := m.lexes (d := ' ') rfl line (spaced (n :: ms) ++ ')' :: rest)
    have htext : spaced (m :: n :: ms) = m.chars ++ ' ' :: spaced (n :: ms) := by
      simp [spaced]
    rw [htext, List.append_assoc]
    exact hfirst.append ((Lexes.space line _).append hlater)

end Stencil.Printing
