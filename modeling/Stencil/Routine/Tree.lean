/-!
# Trees of the routine language

A routine is a list of statements over expressions.  Functions are written in place, with a body
that is an expression or a block.

* `Expr`, `Body`, `Stmt` — expressions, the bodies of functions, and statements;
* `Program` — the parameters of a routine and its statements;
* `Program.numbered` — the same program with its functions told apart by number.  Two functions are
  the same only if they were written at the same place, so each place gets a number of its own.
-/

namespace Stencil.Routine

/-- What a sign between two operands computes. -/
inductive BinaryOp where
  | add
  | subtract
  | multiply
  | divide
  | remainder
  | equal
  | unequal
  | strictEqual
  | strictUnequal
  | less
  | atMost
  | greater
  | atLeast
  deriving DecidableEq, Repr

/-- A choice between two operands, the second of which may stay unevaluated. -/
inductive LogicalOp where
  | both
  | either
  | fallback
  deriving DecidableEq, Repr

/-- What a sign or word in front of an operand computes. -/
inductive UnaryOp where
  | negation
  | minus
  | plus
  | kind
  deriving DecidableEq, Repr

/-- How a variable is declared. -/
inductive DeclKind where
  | variable
  | constant
  | loose
  deriving DecidableEq, Repr

/-- Whether a variable of this kind can be given another value. -/
def DeclKind.changeable : DeclKind → Bool
  | .variable => true
  | .constant => false
  | .loose => true

/-- What a loop over a value visits. -/
inductive EachHead where
  /-- The items. -/
  | items
  /-- The keys. -/
  | keys
  deriving DecidableEq, Repr

mutual

/-- An expression. -/
inductive Expr where
  | number (x : Float)
  | text (s : String)
  | bool (b : Bool)
  | null
  | undefined
  | name (s : String)
  | array (items : List Expr)
  | object (members : List (String × Expr))
  | member (object : Expr) (property : String) (optional : Bool)
  | index (object : Expr) (key : Expr) (optional : Bool)
  | call (callee : Expr) (args : List Expr) (optional : Bool)
  | unary (op : UnaryOp) (operand : Expr)
  | binary (op : BinaryOp) (left right : Expr)
  | logical (op : LogicalOp) (left right : Expr)
  | conditional (test yes no : Expr)
  | assign (op : Option BinaryOp) (target value : Expr)
  | update (up leading : Bool) (target : Expr)
  | arrow (site : Nat) (params : List String) (body : Body)

/-- The body of a function. -/
inductive Body where
  | expr (e : Expr)
  | block (stmts : List Stmt)

/-- A statement. -/
inductive Stmt where
  | empty
  | expr (e : Expr)
  | declare (kind : DeclKind) (bindings : List (String × Option Expr))
  | block (stmts : List Stmt)
  | branch (test : Expr) (yes : Stmt) (no : Option Stmt)
  | each (head : EachHead) (kind : Option DeclKind) (name : String) (source : Expr) (body : Stmt)
  | loop (init : Option Stmt) (test : Option Expr) (update : Option Expr) (body : Stmt)
  | repeatWhile (test : Expr) (body : Stmt)
  | leave
  | skip
  | giveBack (value : Option Expr)
  | raise (value : Expr)
  | within (object : Expr) (guarded : Bool) (body : List Stmt)

end

instance : Inhabited Expr := ⟨.undefined⟩
instance : Inhabited Stmt := ⟨.empty⟩
instance : Inhabited Body := ⟨.block []⟩

/-- The parameters of a routine and its statements. -/
structure Program where
  /-- The names of the parameters. -/
  params : List String
  /-- The statements. -/
  body : List Stmt

instance : Inhabited Program := ⟨⟨[], []⟩⟩

/-! ### Numbering the functions -/

mutual

/-- The expression with its functions numbered from the given number on, and the next number. -/
def Expr.numbered : Expr → StateM Nat Expr
  | .number x => return .number x
  | .text s => return .text s
  | .bool b => return .bool b
  | .null => return .null
  | .undefined => return .undefined
  | .name s => return .name s
  | .array items => return .array (← numberedExprs items)
  | .object members => return .object (← numberedMembers members)
  | .member object property optional => return .member (← object.numbered) property optional
  | .index object key optional => return .index (← object.numbered) (← key.numbered) optional
  | .call callee args optional => return .call (← callee.numbered) (← numberedExprs args) optional
  | .unary op operand => return .unary op (← operand.numbered)
  | .binary op left right => return .binary op (← left.numbered) (← right.numbered)
  | .logical op left right => return .logical op (← left.numbered) (← right.numbered)
  | .conditional test yes no =>
    return .conditional (← test.numbered) (← yes.numbered) (← no.numbered)
  | .assign op target value => return .assign op (← target.numbered) (← value.numbered)
  | .update up leading target => return .update up leading (← target.numbered)
  | .arrow _ params body => do
    let site ← get
    set (site + 1)
    return .arrow site params (← body.numbered)

/-- `Expr.numbered` along a list. -/
def numberedExprs : List Expr → StateM Nat (List Expr)
  | [] => return []
  | e :: es => return (← e.numbered) :: (← numberedExprs es)

/-- `Expr.numbered` along named expressions. -/
def numberedMembers : List (String × Expr) → StateM Nat (List (String × Expr))
  | [] => return []
  | (name, e) :: es => return (name, ← e.numbered) :: (← numberedMembers es)

/-- `Expr.numbered` along declared names, which may have no value. -/
def numberedBindings : List (String × Option Expr) → StateM Nat (List (String × Option Expr))
  | [] => return []
  | (name, none) :: es => return (name, none) :: (← numberedBindings es)
  | (name, some e) :: es => return (name, some (← e.numbered)) :: (← numberedBindings es)

/-- The body with its functions numbered. -/
def Body.numbered : Body → StateM Nat Body
  | .expr e => return .expr (← e.numbered)
  | .block stmts => return .block (← numberedStmts stmts)

/-- The statement with its functions numbered. -/
def Stmt.numbered : Stmt → StateM Nat Stmt
  | .empty => return .empty
  | .expr e => return .expr (← e.numbered)
  | .declare kind bindings => return .declare kind (← numberedBindings bindings)
  | .block stmts => return .block (← numberedStmts stmts)
  | .branch test yes none => return .branch (← test.numbered) (← yes.numbered) none
  | .branch test yes (some no) =>
    return .branch (← test.numbered) (← yes.numbered) (some (← no.numbered))
  | .each head kind name source body =>
    return .each head kind name (← source.numbered) (← body.numbered)
  | .loop init test update body => do
    let init ← match init with
      | none => pure none
      | some s => some <$> s.numbered
    let test ← match test with
      | none => pure none
      | some e => some <$> e.numbered
    let update ← match update with
      | none => pure none
      | some e => some <$> e.numbered
    return .loop init test update (← body.numbered)
  | .repeatWhile test body => return .repeatWhile (← test.numbered) (← body.numbered)
  | .leave => return .leave
  | .skip => return .skip
  | .giveBack none => return .giveBack none
  | .giveBack (some e) => return .giveBack (some (← e.numbered))
  | .raise e => return .raise (← e.numbered)
  | .within object guarded body =>
    return .within (← object.numbered) guarded (← numberedStmts body)

/-- `Stmt.numbered` along a list. -/
def numberedStmts : List Stmt → StateM Nat (List Stmt)
  | [] => return []
  | s :: ss => return (← s.numbered) :: (← numberedStmts ss)

end

/-- The program with its functions numbered from zero on. -/
def Program.numbered (p : Program) : Program := ⟨p.params, ((numberedStmts p.body).run 0).1⟩

end Stencil.Routine
