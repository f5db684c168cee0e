import Stencil.Routine.Parser

/-!
# Rounds of the parser's loops

The parser reads rows of things in loops: statements up to an end, variables of a declaration,
joints and selections behind an operand, items between brackets.  A round of a loop either ends it
or finds something behind which the loop goes on.  What a round calls is given to it, so that a
round knows nothing of bounds.

* `Round` — what a round comes to;
* `rounds` — a loop from its first round and what follows the others;
* `topRound`, `blockRound`, `variableRound`, `jointRound`, `selectionRound`, `itemRound` — the
  rounds;
* `topStatements_succ`, `continueWith_succ` and others — each loop of the parser consists of them.
-/

namespace Stencil.Routine

open Routine.Parser

/-- What a round of a loop comes to. -/
inductive Round (α β : Type) where
  /-- The loop ends with a result. -/
  | last (b : β)
  /-- The loop goes on behind what was found. -/
  | more (a : α)

/-- A loop: its first round, and behind what that finds the others. -/
def rounds {α β : Type} (round : Parser (Round α β)) (others : α → Parser β) : Parser β := do
  match ← round with
  | .last b => return b
  | .more a => others a

/-! ### The rounds -/

/-- A round of the statements of a source, which go up to its end. -/
def topRound (statement : Parser Stmt) : Parser (Round Stmt (List Stmt)) := do
  match ← peek with
  | none => return .last []
  | some _ => return .more (← statement)

/-- A round of the statements of a block, which go up to its brace. -/
def blockRound (statement : Parser Stmt) : Parser (Round Stmt (List Stmt)) := do
  match ← peek with
  | some (.sign .closeBrace) =>
    advance
    return .last []
  | none => unexpected "'\x7d'"
  | some _ => return .more (← statement)

/-- A round of a declaration: a variable and its value. -/
def variableRound (expression : Nat → Parser Expr) (kind : DeclKind) :
    Parser (Round (String × Option Expr) (List (String × Option Expr))) := do
  let name ← expectName
  let value ←
    if ← eat .becomes then some <$> expression itemPower
    else if kind == .constant then fail (.constant name)
    else pure none
  if ← eat .comma then return .more (name, value) else return .last [(name, value)]

/-- A round of an expression: a joint that binds tightly enough, and what it joins. -/
def jointRound (expression : Nat → Parser Expr) (least : Nat) (left : Expr) :
    Parser (Round Expr Expr) := do
  match joint? (← peek) with
  | none => return .last left
  | some (power, joint) =>
    if power.left < least then return .last left
    else
      advance
      let next ← match joint with
        | .assign op =>
          if left.isTarget then
            let value ← expression power.right
            pure (Expr.assign op left value)
          else fail .target
        | .conditional =>
          let yes ← expression itemPower
          expect .colon
          let no ← expression power.right
          pure (Expr.conditional left yes no)
        | .logical op =>
          let right ← expression power.right
          pure (Expr.logical op left right)
        | .binary op =>
          let right ← expression power.right
          pure (Expr.binary op left right)
      return .more next

/-- A round of what is selected from an expression: a member, an index, a call or a count. -/
def selectionRound (expression : Nat → Parser Expr) (arguments : Parser (List Expr)) (e : Expr) :
    Parser (Round Expr Expr) := do
  match ← peek with
  | some (.sign .dot) =>
    advance
    let property ← expectName
    return .more (.member e property false)
  | some (.sign .optionalDot) =>
    advance
    if ← eat .openParen then
      let args ← arguments
      return .more (.call e args true)
    else if ← eat .openBracket then
      let key ← expression 0
      expect .closeBracket
      return .more (.index e key true)
    else
      let property ← expectName
      return .more (.member e property true)
  | some (.sign .openBracket) =>
    advance
    let key ← expression 0
    expect .closeBracket
    return .more (.index e key false)
  | some (.sign .openParen) =>
    advance
    let args ← arguments
    return .more (.call e args false)
  | here =>
    match counts? here with
    | none => return .last e
    | some up =>
      if e.isTarget then
        advance
        return .more (.update up false e)
      else return .last e

/-- A round of a list of items: an item and the comma behind it. -/
def itemRound {α : Type} (item : Parser α) (close : Punctuator) :
    Parser (Round α (List α)) := do
  if ← at? close then
    advance
    return .last []
  else
    let a ← item
    if ← eat .comma then return .more a
    else
      expect close
      return .last [a]

/-! ### The loops -/

section

variable {α β γ : Type} {others : α → Parser β}

theorem rounds_bind (p : Parser γ) (f : γ → Parser (Round α β)) :
    rounds (p >>= f) others = p >>= fun c => rounds (f c) others := bind_assoc p f _

theorem rounds_last (b : β) : rounds (pure (.last b)) others = pure b := rfl

theorem rounds_more (a : α) : rounds (pure (.more a)) others = others a := rfl

end

variable (bound : Nat)

theorem topStatements_succ :
    topStatements (bound + 1)
      = rounds (topRound (statement bound)) fun s => (s :: ·) <$> topStatements bound := by
  rw [topStatements, topRound, rounds_bind]
  congr 1
  funext here
  cases here with
  | none => rfl
  | some x => simp only [rounds_bind, rounds_more, map_eq_pure_bind]

theorem statements_succ :
    statements (bound + 1)
      = rounds (blockRound (statement bound)) fun s => (s :: ·) <$> statements bound := by
  rw [statements, blockRound, rounds_bind]
  congr 1
  funext here
  split
  · rfl
  · rfl
  · simp only [rounds_bind, rounds_more, map_eq_pure_bind]

theorem declaration_succ (kind : DeclKind) :
    declaration (bound + 1) kind
      = rounds (variableRound (expression bound) kind)
          fun x => (x :: ·) <$> declaration bound kind := by
  rw [declaration, variableRound, rounds_bind]
  congr 1
  funext name
  have hrest (value : Option Expr) :
      (do
        if ← eat .comma then return (name, value) :: (← declaration bound kind)
        else return [(name, value)])
      = rounds (do
          if ← eat .comma then return .more (name, value) else return .last [(name, value)])
          fun x => (x :: ·) <$> declaration bound kind := by
    rw [rounds_bind]
    congr 1
    funext comma
    cases comma with
    | true => simp only [if_true, rounds_more, map_eq_pure_bind]
    | false => rfl
  rw [rounds_bind]
  congr 1
  funext value
  cases value with
  | true =>
    simp only [if_true, rounds_bind, hrest]
  | false =>
    simp only [Bool.false_eq_true, if_false]
    split
    · simp only [rounds_bind, hrest]
    · simp only [rounds_bind, hrest]

theorem continueWith_succ (least : Nat) (left : Expr) :
    continueWith (bound + 1) least left
      = rounds (jointRound (expression bound) least left) (continueWith bound least) := by
  rw [continueWith, jointRound, rounds_bind]
  congr 1
  funext here
  cases joint? here with
  | none => rfl
  | some found =>
    obtain ⟨power, joint⟩ := found
    dsimp only
    split
    · rfl
    · cases joint with
      | assign op =>
        dsimp only
        split
        · simp only [rounds_bind, rounds_more]
        · simp only [rounds_bind, rounds_more]
      | conditional => simp only [rounds_bind, rounds_more]
      | logical op => simp only [rounds_bind, rounds_more]
      | binary op => simp only [rounds_bind, rounds_more]

theorem selections_succ (e : Expr) :
    selections (bound + 1) e
      = rounds (selectionRound (expression bound)
          (commaList (expression bound itemPower) .closeParen bound) e) (selections bound) := by
  rw [selections, selectionRound, rounds_bind]
  congr 1
  funext here
  split
  · simp only [rounds_bind, rounds_more]
  · simp only [rounds_bind]
    congr 1
    funext _
    congr 1
    funext paren
    cases paren with
    | true => simp only [if_true, rounds_bind, rounds_more]
    | false =>
      simp only [Bool.false_eq_true, if_false, rounds_bind]
      congr 1
      funext bracket
      cases bracket with
      | true => simp only [if_true, rounds_bind, rounds_more]
      | false => simp only [Bool.false_eq_true, if_false, rounds_bind, rounds_more]
  · simp only [rounds_bind, rounds_more]
  · simp only [rounds_bind, rounds_more]
  · -- No selection is here, so the round comes to its own last case.
    conv => rhs; simp_match
    cases counts? here with
    | none => rfl
    | some up =>
      dsimp only
      split
      · simp only [rounds_bind, rounds_more]
      · rfl

theorem commaList_succ {α : Type} (item : Parser α) (close : Punctuator) :
    commaList item close (bound + 1)
      = rounds (itemRound item close) fun a => (a :: ·) <$> commaList item close bound := by
  rw [commaList, itemRound, rounds_bind]
  congr 1
  funext here
  split
  · rfl
  · rw [rounds_bind]
    congr 1
    funext a
    rw [rounds_bind]
    congr 1
    funext comma
    cases comma with
    | true => simp only [if_true, rounds_more, map_eq_pure_bind]
    | false => simp only [Bool.false_eq_true, if_false, rounds_bind, rounds_last]

end Stencil.Routine
