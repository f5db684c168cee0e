import Stencil.Routine.Lexer
import Stencil.Routine.Tree
import Stencil.Routine.NumberText

/-!
# From tokens to trees

Statements are parsed by what they begin with, expressions by the binding power of the signs between
their operands: an operand goes to the side whose sign binds it more tightly, and a sign that binds
its right side less tightly than its left side groups to the right.

Every function here counts down a bound on the nesting of calls.  A call either takes a token or is
one of a handful of calls in a row that do not, so `parseProgram` can give a bound that is never
reached; `Stop.exhausted` keeps that case apart from a fault of the source.

* `Parser` — steps along the tokens that give a result or stop;
* `Joint`, `jointOf?` — the signs that may follow an operand, with their powers;
* `expression`, `statement` — the two kinds of trees;
* `parseProgram` — the program of a source.
-/

namespace Stencil.Routine

/-- The tokens that are left and the line on which the source ends. -/
structure Input where
  /-- The tokens that are left. -/
  rest : List Token
  /-- The line on which the source ends. -/
  endLine : Nat

/-- Why there is no tree. -/
inductive Stop where
  /-- The source has a fault. -/
  | fault (e : SyntaxError)
  /-- The bound was reached. -/
  | exhausted
  deriving DecidableEq, Repr

/-- Steps along the tokens. -/
abbrev Parser (α : Type) := StateT Input (Except Stop) α

namespace Parser

/-- Stops because the bound is reached. -/
def exhausted {α : Type} : Parser α := fun _ => .error .exhausted

/-- The lexeme that stands here, if the source does not end here. -/
def peek : Parser (Option Lexeme) := do return (← get).rest.head?.map Token.lexeme

/-- The line of the token that stands here. -/
def lineHere : Parser Nat := do
  let input ← get
  return match input.rest with
    | [] => input.endLine
    | token :: _ => token.line

/-- Moves past the token that stands here. -/
def advance : Parser Unit := modify fun input => { input with rest := input.rest.drop 1 }

/-- Complains about the line of the token that stands here. -/
def fail {α : Type} (fault : SyntaxFault) : Parser α := do
  let line ← lineHere
  throw (.fault ⟨line, fault⟩)

/-- Complains that something else was expected here. -/
def unexpected {α : Type} (what : String) : Parser α := do
  fail (.expected what (describe (← peek)))

/-- Whether the sign stands here. -/
def at? (p : Punctuator) : Parser Bool := do return (← peek) == some (.sign p)

/-- Moves past the sign if it stands here, and tells whether it did. -/
def eat (p : Punctuator) : Parser Bool := do
  if ← at? p then
    advance
    return true
  else return false

/-- Moves past the sign, which must stand here. -/
def expect (p : Punctuator) : Parser Unit := do
  if ← eat p then pure () else unexpected ("'" ++ p.text ++ "'")

/-- Moves past a name, which must stand here. -/
def expectName : Parser String := do
  match ← peek with
  | some (.name s) =>
    advance
    return s
  | _ => unexpected "identifier"

/-- Moves past a semicolon if one stands here. -/
def endStatement : Parser Unit := do
  let _ ← eat .semicolon

/-- The items up to a closing sign, parted by commas; a comma may follow the last one. -/
def commaList {α : Type} (item : Parser α) (close : Punctuator) : Nat → Parser (List α)
  | 0 => exhausted
  | bound + 1 => do
    if ← at? close then
      advance
      return []
    else
      let a ← item
      if ← eat .comma then return a :: (← commaList item close bound)
      else
        expect close
        return [a]

end Parser

open Routine.Parser

/-! ### Looking ahead -/

/-- The tokens behind the bracket that closes the one at the front, `depth` of which are open. -/
def afterClosing : Nat → List Token → Option (List Token)
  | _, [] => none
  | depth, token :: rest =>
    match token.lexeme with
    | .sign p =>
      if p.opens then afterClosing (depth + 1) rest
      else if p.closes then if depth ≤ 1 then some rest else afterClosing (depth - 1) rest
      else afterClosing depth rest
    | _ => afterClosing depth rest

/-- Whether a sign is at the front of the tokens. -/
def leads (p : Punctuator) (tokens : List Token) : Bool :=
  tokens.head?.map Token.lexeme == some (.sign p)

/-- Whether the sign follows the bracket that closes the one at the front. -/
def closesBefore (p : Punctuator) (tokens : List Token) : Bool :=
  match afterClosing 0 tokens with
  | some rest => leads p rest
  | none => false

/-- Whether a scope begins at the front: its word, an object in parentheses and a block. -/
def opensScope (tokens : List Token) : Bool :=
  match tokens with
  | ⟨.name word, _⟩ :: rest =>
    (word == "with" || word == "strict") && leads .openParen rest && closesBefore .openBrace rest
  | _ => false

/-! ### Binding powers -/

/-- How tightly a sign binds what stands on either side of it. -/
structure Power where
  /-- The side in front. -/
  left : Nat
  /-- The side behind. -/
  right : Nat
  deriving DecidableEq, Repr

/-- The power of a sign that groups to the left. -/
def Power.leftward (n : Nat) : Power := ⟨n, n + 1⟩

/-- The power of a sign that groups to the right. -/
def Power.rightward (n : Nat) : Power := ⟨n + 1, n⟩

/-- What a sign behind an operand makes of it. -/
inductive Joint where
  | assign (op : Option BinaryOp)
  | conditional
  | logical (op : LogicalOp)
  | binary (op : BinaryOp)
  deriving DecidableEq, Repr

/-- The power with which everything inside a list of expressions is parsed. -/
def itemPower : Nat := 2

/-- The power with which the operand of a leading sign is parsed. -/
def operandPower : Nat := 18

/-- The sign as a joint between operands, with its power. -/
def jointOf? : Punctuator → Option (Power × Joint)
  | .becomes => some (.rightward 2, .assign none)
  | .addTo => some (.rightward 2, .assign (some .add))
  | .takeFrom => some (.rightward 2, .assign (some .subtract))
  | .multiplyBy => some (.rightward 2, .assign (some .multiply))
  | .divideBy => some (.rightward 2, .assign (some .divide))
  | .reduceBy => some (.rightward 2, .assign (some .remainder))
  | .question => some (.rightward 4, .conditional)
  | .fallback => some (.leftward 6, .logical .fallback)
  | .either => some (.leftward 6, .logical .either)
  | .both => some (.leftward 8, .logical .both)
  | .equal => some (.leftward 10, .binary .equal)
  | .unequal => some (.leftward 10, .binary .unequal)
  | .strictEqual => some (.leftward 10, .binary .strictEqual)
  | .strictUnequal => some (.leftward 10, .binary .strictUnequal)
  | .less => some (.leftward 12, .binary .less)
  | .atMost => some (.leftward 12, .binary .atMost)
  | .greater => some (.leftward 12, .binary .greater)
  | .atLeast => some (.leftward 12, .binary .atLeast)
  | .plus => some (.leftward 14, .binary .add)
  | .minus => some (.leftward 14, .binary .subtract)
  | .star => some (.leftward 16, .binary .multiply)
  | .slash => some (.leftward 16, .binary .divide)
  | .percent => some (.leftward 16, .binary .remainder)
  | _ => none

/-- The joint that stands here. -/
def joint? (lexeme : Option Lexeme) : Option (Power × Joint) :=
  match lexeme with
  | some (.sign p) => jointOf? p
  | _ => none

/-- The sign or word in front of an operand. -/
def unary? (lexeme : Option Lexeme) : Option UnaryOp :=
  match lexeme with
  | some (.sign .exclamation) => some .negation
  | some (.sign .minus) => some .minus
  | some (.sign .plus) => some .plus
  | some (.name "typeof") => some .kind
  | _ => none

/-- Whether a sign counts up, if it counts at all. -/
def counts? (lexeme : Option Lexeme) : Option Bool :=
  match lexeme with
  | some (.sign .increment) => some true
  | some (.sign .decrement) => some false
  | _ => none

/-- The kind of variable that a word declares. -/
def declKind? (lexeme : Option Lexeme) : Option DeclKind :=
  match lexeme with
  | some (.name "let") => some .variable
  | some (.name "const") => some .constant
  | some (.name "var") => some .loose
  | _ => none

/-- Whether a value can be given to the expression. -/
def Expr.isTarget : Expr → Bool
  | .name _ => true
  | .member _ _ _ => true
  | .index _ _ _ => true
  | _ => false

/-- What a name stands for when it is an expression by itself. -/
def nameExpr (s : String) : Expr :=
  match s with
  | "true" => .bool true
  | "false" => .bool false
  | "null" => .null
  | "undefined" => .undefined
  | s => .name s

/-- The name of a member that a lexeme writes. -/
def memberName? : Lexeme → Option String
  | .name s => some s
  | .text s => some s
  | .number x => some (numberText x)
  | .sign _ => none

mutual

/-- An expression in which every joint binds at least as tightly as `least`. -/
def expression : Nat → Nat → Parser Expr
  | 0, _ => exhausted
  | bound + 1, least => do
    let left ← operand bound
    continueWith bound least left

/-- The expression that begins with `left`. -/
def continueWith : Nat → Nat → Expr → Parser Expr
  | 0, _, _ => exhausted
  | bound + 1, least, left => do
    match joint? (← peek) with
    | none => return left
    | some (power, joint) =>
      if power.left < least then return left
      else
        advance
        let next ← match joint with
          | .assign op =>
            if left.isTarget then
              let value ← expression bound power.right
              pure (Expr.assign op left value)
            else fail .target
          | .conditional =>
            let yes ← expression bound itemPower
            expect .colon
            let no ← expression bound power.right
            pure (Expr.conditional left yes no)
          | .logical op =>
            let right ← expression bound power.right
            pure (Expr.logical op left right)
          | .binary op =>
            let right ← expression bound power.right
            pure (Expr.binary op left right)
        continueWith bound least next

/-- An operand with the signs in front of it. -/
def operand : Nat → Parser Expr
  | 0 => exhausted
  | bound + 1 => do
    let here ← peek
    match unary? here with
    | some op =>
      advance
      return .unary op (← expression bound operandPower)
    | none =>
      match counts? here with
      | some up =>
        advance
        return .update up true (← expression bound operandPower)
      | none =>
        let e ← primary bound
        selections bound e

/-- What is selected from an expression: members, indexes, calls and counting. -/
def selections : Nat → Expr → Parser Expr
  | 0, _ => exhausted
  | bound + 1, e => do
    match ← peek with
    | some (.sign .dot) =>
      advance
      let property ← expectName
      selections bound (.member e property false)
    | some (.sign .optionalDot) =>
      advance
      if ← eat .openParen then
        let args ← commaList (expression bound itemPower) .closeParen bound
        selections bound (.call e args true)
      else if ← eat .openBracket then
        let key ← expression bound 0
        expect .closeBracket
        selections bound (.index e key true)
      else
        let property ← expectName
        selections bound (.member e property true)
    | some (.sign .openBracket) =>
      advance
      let key ← expression bound 0
      expect .closeBracket
      selections bound (.index e key false)
    | some (.sign .openParen) =>
      advance
      let args ← commaList (expression bound itemPower) .closeParen bound
      selections bound (.call e args false)
    | here =>
      match counts? here with
      | none => return e
      | some up =>
        if e.isTarget then
          advance
          selections bound (.update up false e)
        else return e

/-- An expression without signs around it. -/
def primary : Nat → Parser Expr
  | 0 => exhausted
  | bound + 1 => do
    match ← peek with
    | some (.number x) =>
      advance
      return .number x
    | some (.text s) =>
      advance
      return .text s
    | some (.name s) =>
      if leads .arrow ((← get).rest.drop 1) then
        advance
        advance
        functionBody bound [s]
      else
        advance
        return nameExpr s
    | some (.sign .openParen) =>
      if closesBefore .arrow (← get).rest then
        advance
        let params ← commaList expectName .closeParen bound
        expect .arrow
        functionBody bound params
      else
        advance
        let e ← expression bound 0
        expect .closeParen
        return e
    | some (.sign .openBracket) =>
      advance
      return .array (← commaList (expression bound itemPower) .closeBracket bound)
    | some (.sign .openBrace) =>
      advance
      return .object (← commaList (objectMember bound) .closeBrace bound)
    | _ => unexpected "expression"

/-- A named member of an object; without a value it is the variable of that name. -/
def objectMember : Nat → Parser (String × Expr)
  | 0 => exhausted
  | bound + 1 => do
    let here ← peek
    match here.bind memberName? with
    | none => fail (.memberName (describe here))
    | some name =>
      advance
      if ← eat .colon then return (name, ← expression bound itemPower)
      else return (name, .name name)

/-- The body of a function whose arrow was read. -/
def functionBody : Nat → List String → Parser Expr
  | 0, _ => exhausted
  | bound + 1, params => do
    if ← at? .openBrace then return .arrow 0 params (.block (← block bound))
    else return .arrow 0 params (.expr (← expression bound itemPower))

/-- Statements between braces. -/
def block : Nat → Parser (List Stmt)
  | 0 => exhausted
  | bound + 1 => do
    expect .openBrace
    statements bound

/-- Statements up to a closing brace. -/
def statements : Nat → Parser (List Stmt)
  | 0 => exhausted
  | bound + 1 => do
    match ← peek with
    | some (.sign .closeBrace) =>
      advance
      return []
    | none => unexpected "'\x7d'"
    | some _ =>
      let s ← statement bound
      return s :: (← statements bound)

/-- A statement. -/
def statement : Nat → Parser Stmt
  | 0 => exhausted
  | bound + 1 => do
    let here ← peek
    let line ← lineHere
    match here with
    | some (.sign .openBrace) => return .block (← block bound)
    | some (.sign .semicolon) =>
      advance
      return .empty
    | _ =>
    match declKind? here with
    | some kind =>
      advance
      let bindings ← declaration bound kind
      endStatement
      return .declare kind bindings
    | none =>
    if opensScope (← get).rest then
      advance
      expect .openParen
      let object ← expression bound 0
      expect .closeParen
      return .within object (here == some (.name "strict")) (← block bound)
    else
    match here with
    | some (.name "if") =>
      advance
      expect .openParen
      let test ← expression bound 0
      expect .closeParen
      let yes ← statement bound
      if (← peek) == some (.name "else") then
        advance
        return .branch test yes (some (← statement bound))
      else return .branch test yes none
    | some (.name "for") =>
      advance
      forLoop bound
    | some (.name "while") =>
      advance
      expect .openParen
      let test ← expression bound 0
      expect .closeParen
      return .repeatWhile test (← statement bound)
    | some (.name "break") =>
      advance
      endStatement
      return .leave
    | some (.name "continue") =>
      advance
      endStatement
      return .skip
    | some (.name "return") =>
      advance
      let next ← peek
      let nextLine ← lineHere
      if next == some (.sign .semicolon) || next == some (.sign .closeBrace) || next == none
          || nextLine != line then
        endStatement
        return .giveBack none
      else
        let e ← expression bound 0
        endStatement
        return .giveBack (some e)
    | some (.name "throw") =>
      advance
      let e ← expression bound 0
      endStatement
      return .raise e
    | some (.name "else") => unexpected "statement"
    | _ =>
      let e ← expression bound 0
      endStatement
      return .expr e

/-- The variables of a declaration whose word was read. -/
def declaration : Nat → DeclKind → Parser (List (String × Option Expr))
  | 0, _ => exhausted
  | bound + 1, kind => do
    let name ← expectName
    let value ←
      if ← eat .becomes then some <$> expression bound itemPower
      else if kind == .constant then fail (.constant name)
      else pure none
    if ← eat .comma then return (name, value) :: (← declaration bound kind)
    else return [(name, value)]

/-- A loop whose word was read: over items or keys, or with a test and an update. -/
def forLoop : Nat → Parser Stmt
  | 0 => exhausted
  | bound + 1 => do
    expect .openParen
    let kind := declKind? (← peek)
    let rest := (← get).rest
    match (if kind.isSome then rest.drop 1 else rest) with
    | ⟨.name name, _⟩ :: ⟨.name word, _⟩ :: _ =>
      if word == "of" || word == "in" then
        if kind.isSome then advance
        advance
        advance
        let source ← expression bound 0
        expect .closeParen
        let head := if word == "of" then EachHead.items else EachHead.keys
        return .each head kind name source (← statement bound)
      else countedLoop bound kind
    | _ => countedLoop bound kind

/-- A loop with a test and an update, behind its opening parenthesis. -/
def countedLoop : Nat → Option DeclKind → Parser Stmt
  | 0, _ => exhausted
  | bound + 1, kind => do
    let init ←
      if ← at? .semicolon then pure none
      else
        match kind with
        | some kind =>
          advance
          pure (some (Stmt.declare kind (← declaration bound kind)))
        | none => pure (some (Stmt.expr (← expression bound 0)))
    expect .semicolon
    let test ← if ← at? .semicolon then pure none else some <$> expression bound 0
    expect .semicolon
    let update ← if ← at? .closeParen then pure none else some <$> expression bound 0
    expect .closeParen
    return .loop init test update (← statement bound)

end

/-- Statements up to the end of the source. -/
def topStatements : Nat → Parser (List Stmt)
  | 0 => exhausted
  | bound + 1 => do
    match ← peek with
    | none => return []
    | some _ =>
      let s ← statement bound
      return s :: (← topStatements bound)

/-- A bound on nested calls that a source of so many tokens does not reach. -/
def callBound (tokens : Nat) : Nat := 8 * (tokens + 2)

/-- The program that tokens write. -/
def parseTokens (params : List String) (lexed : Lexed) : Except Stop Program :=
  ((topStatements (callBound lexed.tokens.length)).run ⟨lexed.tokens, lexed.endLine⟩).map
    fun (body, _) => ⟨params, body⟩

/-- The program that a source writes, for a routine with these parameters. -/
def parseProgram (params : List String) (source : String) : Except Stop Program :=
  match lex source with
  | .error e => .error (.fault e)
  | .ok lexed => parseTokens params lexed

end Stencil.Routine
