import Stencil.Proofs.Printing.Grouping

/-!
# Printed expressions are read back

The parser undoes the printing of an expression: the text in parentheses is a program of one
statement, which holds the tree of the expression.

* `Term.reads` — the marks of every expression are read as its tree, wherever its level allows it;
* `parse_print` — **the main theorem**;
* `selectingBody_mistaken` — parentheses around bodies that are objects would not be enough: a body
  may begin with an object without being one.
-/

namespace Stencil.Printing

open Routine Routine.Parser Reading

theorem itemPower_le_level (t : Term) : itemPower ≤ t.level := by
  cases t with
  | binary op _ _ => cases op <;> exact Nat.le_of_ble_eq_true rfl
  | logical op _ _ => cases op <;> exact Nat.le_of_ble_eq_true rfl
  | update _ leading _ => cases leading <;> exact Nat.le_of_ble_eq_true rfl
  | _ => exact Nat.le_of_ble_eq_true rfl

theorem Place.isTarget_expr (p : Place) : p.expr.isTarget = true := by
  cases p <;> rfl

theorem exprsOf_eq (ts : List Term) : exprsOf ts = ts.map Term.expr := by
  induction ts with
  | nil => rfl
  | cons t ts ih => rw [exprsOf, ih, List.map_cons]

theorem membersOf_eq (members : List (String × Term)) :
    membersOf members = members.map fun m => (m.1, m.2.expr) := by
  induction members with
  | nil => rfl
  | cons m members ih => rw [membersOf, ih, List.map_cons]

theorem itemMarks_eq (wraps : Term → List Mark → Bool) (ts : List Term) :
    itemMarks wraps ts = ts.map (Term.marks wraps) := by
  induction ts with
  | nil => rfl
  | cons t ts ih => rw [itemMarks, ih, List.map_cons]

theorem memberMarks_eq (wraps : Term → List Mark → Bool) (members : List (String × Term)) :
    memberMarks wraps members
      = members.map fun m => nameMark m.1 :: .sign .colon :: m.2.marks wraps := by
  induction members with
  | nil => rfl
  | cons m members ih => rw [memberMarks, ih, List.map_cons]

theorem Word.ne_of_mem (x : Word) {s : String} (h : s ∈ reservedNames) : x.name ≠ s := by
  rintro rfl
  exact x.free h

theorem nameExpr_word (x : Word) : nameExpr x.name = .name x.name := by
  simp only [nameExpr]
  split
  · rename_i heq
    exact absurd heq (x.ne_of_mem (by decide))
  · rename_i heq
    exact absurd heq (x.ne_of_mem (by decide))
  · rename_i heq
    exact absurd heq (x.ne_of_mem (by decide))
  · rename_i heq
    exact absurd heq (x.ne_of_mem (by decide))
  · rfl

section Lists

variable {ts : List Term} {members : List (String × Term)}

/-- Expressions as items, with their marks and trees. -/
theorem items_of_reads (h : ∀ t ∈ ts, Reads t.level (t.marks wrapsBrace) t.expr) :
    ∃ parts : List (List Mark × Expr), itemMarks wrapsBrace ts = parts.map Prod.fst
      ∧ exprsOf ts = parts.map Prod.snd
      ∧ ∀ part ∈ parts, IsItem (expression · itemPower) part.1 part.2 := by
  refine ⟨ts.map fun t => (t.marks wrapsBrace, t.expr), ?_, ?_, ?_⟩
  · rw [itemMarks_eq, List.map_map]
    rfl
  · rw [exprsOf_eq, List.map_map]
    rfl
  · intro part hpart
    obtain ⟨t, ht, rfl⟩ := List.mem_map.mp hpart
    exact (h t ht).isItem (itemPower_le_level t)

/-- Named expressions as members, with their marks and trees. -/
theorem members_of_reads
    (h : ∀ m ∈ members, Reads m.2.level (m.2.marks wrapsBrace) m.2.expr) :
    ∃ parts : List (List Mark × String × Expr), memberMarks wrapsBrace members = parts.map Prod.fst
      ∧ membersOf members = parts.map Prod.snd
      ∧ ∀ part ∈ parts, IsItem objectMember part.1 part.2 := by
  refine ⟨members.map fun m =>
    (nameMark m.1 :: .sign .colon :: m.2.marks wrapsBrace, m.1, m.2.expr), ?_, ?_, ?_⟩
  · rw [memberMarks_eq, List.map_map]
    rfl
  · rw [membersOf_eq, List.map_map]
    rfl
  · intro part hpart
    obtain ⟨m, hm, rfl⟩ := List.mem_map.mp hpart
    exact (h m hm).isMember (itemPower_le_level m.2) m.1

end Lists

mutual

/-- The marks of an expression are read as its tree. -/
theorem Term.reads (t : Term) : Reads t.level (t.marks wrapsBrace) t.expr := by
  match t with
  | .number n => exact reads_number n
  | .text s => exact reads_text s
  | .bool true => exact reads_name (by decide)
  | .bool false => exact reads_name (by decide)
  | .null => exact reads_name (by decide)
  | .undefined => exact reads_name (by decide)
  | .place p => exact p.reads
  | .array items =>
    obtain ⟨parts, hmarks, hexprs, hparts⟩ := items_of_reads (terms_read items)
    rw [Term.marks, Term.expr, hmarks, hexprs]
    exact reads_array hparts
  | .object members =>
    obtain ⟨parts, hmarks, hexprs, hparts⟩ := members_of_reads (members_read members)
    rw [Term.marks, Term.expr, hmarks, hexprs]
    exact reads_object hparts
  | .call callee args optional =>
    obtain ⟨l, hl, hcallee⟩ := callee.reads.fit (Nat.le_refl closeLevel)
    obtain ⟨parts, hmarks, hexprs, hparts⟩ := items_of_reads (terms_read args)
    rw [Term.marks, Term.expr, hmarks, hexprs]
    exact reads_call hcallee hl hparts optional
  | .unary op operand =>
    obtain ⟨l, hl, hoperand⟩ := operand.reads.fit (show leadingLevel ≤ closeLevel by decide)
    exact reads_unary op hoperand hl
  | .binary op left right =>
    have hlevel : binaryLevel op + 1 ≤ closeLevel := by cases op <;> decide
    obtain ⟨l, hl, hleft⟩ := left.reads.fit (Nat.le_of_succ_le hlevel)
    obtain ⟨r, hr, hright⟩ := right.reads.fit hlevel
    exact reads_binary op hleft hl hright hr
  | .logical op left right =>
    have hlevel : logicalLevel op + 1 ≤ closeLevel := by cases op <;> decide
    obtain ⟨l, hl, hleft⟩ := left.reads.fit (Nat.le_of_succ_le hlevel)
    obtain ⟨r, hr, hright⟩ := right.reads.fit hlevel
    exact reads_logical op hleft hl hright hr
  | .conditional test yes no =>
    obtain ⟨l, hl, htest⟩ := test.reads.fit (show conditionalLevel + 1 ≤ closeLevel by decide)
    obtain ⟨y, hy, hyes⟩ := yes.reads.fit (show assignLevel ≤ closeLevel by decide)
    obtain ⟨n, hn, hno⟩ := no.reads.fit (show conditionalLevel ≤ closeLevel by decide)
    exact reads_conditional htest hl hyes hy hno hn
  | .assign op target value =>
    obtain ⟨r, hr, hvalue⟩ := value.reads.fit (show assignLevel ≤ closeLevel by decide)
    exact reads_assign op target.reads (Nat.le_refl _) target.isTarget_expr hvalue hr
  | .update up true target => exact reads_updated up target.reads (by decide)
  | .update up false target =>
    exact reads_counted target.reads (Nat.le_refl _) target.isTarget_expr up
  | .arrow params body =>
    have hbody := body.reads
    rw [Term.marks, Term.expr]
    by_cases hbrace : beginsBrace (body.marks wrapsBrace) = true
    · rw [show wrapsBrace body (body.marks wrapsBrace) = true from hbrace, if_pos rfl]
      exact reads_arrow params (reads_enclosed hbody) (by decide) rfl
    · rw [Bool.not_eq_true] at hbrace
      rw [show wrapsBrace body (body.marks wrapsBrace) = false from hbrace,
        if_neg Bool.false_ne_true]
      exact reads_arrow params hbody (itemPower_le_level body) hbrace

/-- The marks of a place are read as its tree. -/
theorem Place.reads (p : Place) : Reads closeLevel (p.marks wrapsBrace) p.expr := by
  match p with
  | .name x =>
    have hname := reads_name (x.ne_of_mem (show "typeof" ∈ reservedNames by decide))
    rw [nameExpr_word] at hname
    exact hname
  | .member object property optional =>
    obtain ⟨l, hl, hobject⟩ := object.reads.fit (Nat.le_refl closeLevel)
    exact reads_member hobject hl property optional
  | .index object key optional =>
    obtain ⟨l, hl, hobject⟩ := object.reads.fit (Nat.le_refl closeLevel)
    exact reads_index hobject hl key.reads optional

theorem terms_read (ts : List Term) :
    ∀ t ∈ ts, Reads t.level (t.marks wrapsBrace) t.expr := by
  match ts with
  | [] => exact nofun
  | t :: ts => exact List.forall_mem_cons.mpr ⟨t.reads, terms_read ts⟩

theorem members_read (members : List (String × Term)) :
    ∀ m ∈ members, Reads m.2.level (m.2.marks wrapsBrace) m.2.expr := by
  match members with
  | [] => exact nofun
  | (name, t) :: members => exact List.forall_mem_cons.mpr ⟨t.reads, members_read members⟩

end

/-! ### Whole sources -/

theorem loose_nil (level : Nat) : Loose level [] := ⟨nofun, fun _ _ => rfl⟩

/-- The text of an expression in parentheses is lexed into its marks. -/
theorem lex_inParens (ms : List Mark) :
    lex ("(" ++ String.ofList (spaced ms) ++ ")") = .ok ⟨tokensOf 1 (enclosed ms), 1⟩ := by
  have hwhole := (lexes_sign 1 (spaced ms ++ [')']) .openParen (by decide)).append
    ((lexes_marks 1 ms []).append (lexes_sign 1 [] .closeParen (by decide)))
  have htext : ("(" ++ String.ofList (spaced ms) ++ ")").toList = '(' :: (spaced ms ++ [')']) := by
    simp
  have htokens : tokensOf 1 (enclosed ms)
      = [onLine 1 (.sign .openParen)] ++ (tokensOf 1 ms ++ [onLine 1 (.sign .closeParen)]) := by
    simp [tokensOf, enclosed, Mark.lexeme]
  rw [lex, htext, htokens]
  exact lexChars_of_lexes hwhole

/-- Marks in parentheses that are read as a tree are a statement of their own. -/
theorem parse_enclosed {level : Nat} {ms : List Mark} {e : Expr} (h : Reads level ms e)
    (params : List String) :
    parseTokens params ⟨tokensOf 1 (enclosed ms), 1⟩ = .ok ⟨params, [.expr e]⟩ := by
  have hread : Gives (expression · 0) _ (tokensOf 1 (enclosed ms) ++ []) e [] :=
    (reads_enclosed h).gives_whole (Nat.zero_le _) (loose_nil 0)
  rw [List.append_nil] at hread
  have hlength : (tokensOf 1 (enclosed ms)).length = (enclosed ms).length := List.length_map _
  obtain ⟨bound, hbound⟩ : ∃ b, callBound (tokensOf 1 (enclosed ms)).length = b + 2 :=
    ⟨callBound (tokensOf 1 (enclosed ms)).length - 2, by unfold callBound; omega⟩
  have hexpression := hread bound (by unfold callBound at hbound; omega) 1
  have hstart : statement (bound + 1) ⟨tokensOf 1 (enclosed ms), 1⟩
      = (expression bound 0 >>= fun e => do
          endStatement
          return .expr e) ⟨tokensOf 1 (enclosed ms), 1⟩ := by
    rw [statement]
    rfl
  have hstatement : statement (bound + 1) ⟨tokensOf 1 (enclosed ms), 1⟩
      = .ok (.expr e, ⟨[], 1⟩) := hstart.trans ((bind_ok hexpression).trans rfl)
  have htop : topStatements (bound + 2) ⟨tokensOf 1 (enclosed ms), 1⟩
      = .ok ([.expr e], ⟨[], 1⟩) := by
    rw [topStatements]
    refine (bind_ok rfl).trans ?_
    exact (bind_ok hstatement).trans rfl
  rw [parseTokens]
  rw [hbound]
  show (topStatements (bound + 2) _).map _ = _
  rw [htop]
  rfl

/-- **The parser undoes printing**: the text of every expression, in parentheses, is a program whose
one statement holds the tree of the expression. -/
theorem parse_print (t : Term) :
    parseProgram [] ("(" ++ t.print ++ ")") = .ok ⟨[], [.expr t.expr]⟩ := by
  rw [Term.print, Term.printWith, parseProgram, lex_inParens]
  exact parse_enclosed t.reads []

/-! ### Bodies that begin with an object -/

/-- A body of a function is in parentheses where it is an object. -/
def wrapsObject (t : Term) (_ : List Mark) : Bool :=
  match t with
  | .object _ => true
  | _ => false

/-- A function that gives back a member of an object written in place. -/
def selectingBody : Term :=
  .arrow [.x] (.place (.member (.object []) ⟨['b'], by decide⟩ false))

example : selectingBody.print = "( x ) => ( \x7b \x7d . b )" := by decide +kernel

/-- Whether a program is one expression that selects a member of a function with an empty block. -/
def selectsFromFunction : Except Stop Program → Bool
  | .ok ⟨_, [.expr (.member (.arrow _ _ (.block [])) _ _)]⟩ => true
  | _ => false

/-- Without parentheses, an object at the front of a body is read as a block, and the member is
selected from the function. -/
theorem selectingBody_mistaken :
    parseProgram [] ("(" ++ selectingBody.printWith wrapsObject ++ ")")
      ≠ .ok ⟨[], [.expr selectingBody.expr]⟩ := by
  intro h
  have hmember : selectsFromFunction
      (parseProgram [] ("(" ++ selectingBody.printWith wrapsObject ++ ")")) = true := by
    decide +kernel
  rw [h] at hmember
  cases hmember

end Stencil.Printing
