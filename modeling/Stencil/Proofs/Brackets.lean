import Stencil.Routine.Parser

/-!
# Brackets in rows of tokens

Looking for the bracket that closes another, the parser passes over rows of tokens in which every
bracket is closed, of whatever kind the two are.

* `Closing` — a row that closes some brackets opened in front of it;
* `Balanced` — a row that the search passes over, whatever follows it;
* `Balanced.append`, `Balanced.enclose` — rows behind each other and rows in brackets;
* `closesBefore_enclosed` — what the parser sees behind the brackets around such a row;
* `Closing.finds` — the search ends within a row that closes something.
-/

namespace Stencil.Routine

/-- A row of tokens that closes the innermost `n` brackets opened in front of it, and every bracket
opened in it. -/
def Closing (n : Nat) (tokens : List Token) : Prop :=
  ∀ depth rest, afterClosing (depth + n + 1) (tokens ++ rest) = afterClosing (depth + 1) rest

/-- A row of tokens that the search for a closing bracket passes over. -/
def Balanced (tokens : List Token) : Prop := Closing 0 tokens

theorem not_closes_of_opens {p : Punctuator} (h : p.opens = true) : p.closes = false := by
  revert h
  cases p <;> decide

section

variable {line : Nat} {p q : Punctuator} {tokens others : List Token}

theorem afterClosing_open (hp : p.opens = true) (depth : Nat) (tokens : List Token) :
    afterClosing depth (⟨.sign p, line⟩ :: tokens) = afterClosing (depth + 1) tokens := by
  rw [afterClosing]
  dsimp only
  rw [if_pos hp]

theorem afterClosing_close (hp : p.closes = true) (depth : Nat) (tokens : List Token) :
    afterClosing depth (⟨.sign p, line⟩ :: tokens)
      = if depth ≤ 1 then some tokens else afterClosing (depth - 1) tokens := by
  have hopens : ¬ p.opens = true := fun h => by
    rw [not_closes_of_opens h] at hp
    cases hp
  rw [afterClosing]
  dsimp only
  rw [if_neg hopens, if_pos hp]

/-- Where the search passes over a row, it passes over a row of the same lexemes on other lines. -/
theorem afterClosing_map {f : Token → Token} (hf : ∀ token, (f token).lexeme = token.lexeme)
    {depth depth' : Nat}
    (h : ∀ rest, afterClosing depth (tokens ++ rest) = afterClosing (depth' + 1) rest)
    (rest : List Token) :
    afterClosing depth (tokens.map f ++ rest) = afterClosing (depth' + 1) rest := by
  induction tokens generalizing depth with
  | nil => exact h rest
  | cons token tokens ih =>
    obtain ⟨line, hline⟩ : ∃ line, f token = ⟨token.lexeme, line⟩ :=
      ⟨(f token).line, by rw [← hf token]⟩
    obtain ⟨lexeme, line'⟩ := token
    rw [List.map_cons, hline, List.cons_append]
    cases lexeme with
    | number x => exact ih h
    | text s => exact ih h
    | name s => exact ih h
    | sign p =>
      by_cases hp : p.opens = true
      · simp only [List.cons_append, afterClosing_open hp] at h ⊢
        exact ih h
      · by_cases hq : p.closes = true
        · simp only [List.cons_append, afterClosing_close hq] at h ⊢
          split at h
          · cases h []
          · rename_i hone
            rw [if_neg hone]
            exact ih h
        · simp only [List.cons_append, afterClosing, if_neg hp, if_neg hq] at h ⊢
          exact ih h

namespace Closing

variable {n m : Nat}

/-- Rows behind each other. -/
theorem append (h : Closing n tokens) (h' : Closing m others) :
    Closing (n + m) (tokens ++ others) := by
  intro depth rest
  have hcount : depth + (n + m) + 1 = depth + m + n + 1 := by omega
  rw [List.append_assoc, hcount, h, h']

theorem cons_open (hp : p.opens = true) (h : Closing (n + 1) tokens) :
    Closing n (⟨.sign p, line⟩ :: tokens) := by
  intro depth rest
  rw [List.cons_append, afterClosing_open hp]
  exact h depth rest

theorem cons_close (hp : p.closes = true) (h : Closing n tokens) :
    Closing (n + 1) (⟨.sign p, line⟩ :: tokens) := by
  intro depth rest
  rw [List.cons_append, afterClosing_close hp, if_neg (by omega)]
  exact h depth rest

/-- The lines that the tokens stand on do not matter. -/
theorem map {f : Token → Token} (hf : ∀ token, (f token).lexeme = token.lexeme)
    (h : Closing n tokens) : Closing n (tokens.map f) :=
  fun depth rest => afterClosing_map hf (h depth) rest

end Closing

namespace Balanced

theorem nil : Balanced [] := fun _ _ => rfl

/-- Rows behind each other. -/
theorem append (h : Balanced tokens) (h' : Balanced others) : Balanced (tokens ++ others) := by
  intro depth rest
  rw [List.append_assoc, h, h']

/-- A token that is no bracket. -/
theorem single {token : Token}
    (h : ∀ p, token.lexeme = .sign p → p.opens = false ∧ p.closes = false) :
    Balanced [token] := by
  obtain ⟨lexeme, line⟩ := token
  intro depth rest
  cases lexeme with
  | number x => rfl
  | text s => rfl
  | name s => rfl
  | sign p =>
    obtain ⟨hopens, hcloses⟩ := h p rfl
    rw [List.singleton_append, afterClosing]
    dsimp only
    rw [hopens, hcloses]
    rfl

/-- A token that is no bracket, in front of a row. -/
theorem cons {token : Token}
    (h : ∀ p, token.lexeme = .sign p → p.opens = false ∧ p.closes = false)
    (h' : Balanced tokens) : Balanced (token :: tokens) :=
  (single h).append h'

/-- Behind a row comes the bracket that closes the one in front of it. -/
theorem afterClosing_enclosed (h : Balanced tokens) {line' : Nat} (hp : p.opens = true)
    (hq : q.closes = true) (rest : List Token) :
    afterClosing 0 (⟨.sign p, line⟩ :: (tokens ++ ⟨.sign q, line'⟩ :: rest)) = some rest := by
  rw [afterClosing_open hp, h, afterClosing_close hq]
  rfl

/-- A row in brackets. -/
theorem enclose (h : Balanced tokens) {line' : Nat} (hp : p.opens = true) (hq : q.closes = true) :
    Balanced (⟨.sign p, line⟩ :: (tokens ++ [⟨.sign q, line'⟩])) := by
  intro depth rest
  rw [List.cons_append, List.append_assoc, List.singleton_append, afterClosing_open hp, h,
    afterClosing_close hq, if_neg (by omega)]
  rfl

/-- No closing bracket is at the front of a row. -/
theorem not_closes {line : Nat} (h : Balanced (⟨.sign p, line⟩ :: tokens)) :
    p.closes = false := by
  rw [← Bool.not_eq_true]
  intro hp
  have hnone := h 0 []
  rw [List.append_nil, afterClosing_close hp] at hnone
  cases hnone

end Balanced

/-- What stands behind the brackets around a row is what the parser sees there. -/
theorem closesBefore_enclosed (h : Balanced tokens) {line' : Nat} (hp : p.opens = true)
    (hq : q.closes = true) (sought : Punctuator) (rest : List Token) :
    closesBefore sought (⟨.sign p, line⟩ :: (tokens ++ ⟨.sign q, line'⟩ :: rest))
      = leads sought rest := by
  rw [closesBefore, h.afterClosing_enclosed hp hq]

/-! ### Where the search ends -/

/-- The search ends within a row, or it goes on behind the row with some bracket still open. -/
theorem afterClosing_append (tokens : List Token) {depth : Nat} (hdepth : 1 ≤ depth) :
    (∃ r, ∀ rest, afterClosing depth (tokens ++ rest) = some (r ++ rest))
    ∨ ∃ depth' ≥ 1, ∀ more rest,
      afterClosing (depth + more) (tokens ++ rest) = afterClosing (depth' + more) rest := by
  induction tokens generalizing depth with
  | nil => exact .inr ⟨depth, hdepth, fun _ _ => rfl⟩
  | cons token tokens ih =>
    obtain ⟨lexeme, line⟩ := token
    cases lexeme with
    | number x => exact ih hdepth
    | text s => exact ih hdepth
    | name s => exact ih hdepth
    | sign p =>
      by_cases hp : p.opens = true
      · simp only [List.cons_append, afterClosing_open hp]
        rcases ih (Nat.le_succ_of_le hdepth) with hfound | ⟨depth', hdepth', hgoOn⟩
        · exact .inl hfound
        · refine .inr ⟨depth', hdepth', fun more rest => ?_⟩
          have hcount : depth + more + 1 = depth + 1 + more := by omega
          rw [hcount, hgoOn]
      · by_cases hq : p.closes = true
        · simp only [List.cons_append, afterClosing_close hq]
          by_cases hone : depth ≤ 1
          · exact .inl ⟨tokens, fun rest => if_pos hone⟩
          · rcases ih (show 1 ≤ depth - 1 by omega) with ⟨r, hr⟩ | ⟨depth', hdepth', hgoOn⟩
            · exact .inl ⟨r, fun rest => (if_neg hone).trans (hr rest)⟩
            · refine .inr ⟨depth', hdepth', fun more rest => ?_⟩
              have hcount : depth + more - 1 = depth - 1 + more := by omega
              rw [if_neg (by omega), hcount, hgoOn]
        · have hplain (depth : Nat) (rest : List Token) :
              afterClosing depth (⟨.sign p, line⟩ :: rest) = afterClosing depth rest := by
            rw [afterClosing]
            dsimp only
            rw [if_neg hp, if_neg hq]
          simp only [List.cons_append, hplain]
          exact ih hdepth

/-- From within an open bracket, the search ends in a row that closes something. -/
theorem Closing.finds {n : Nat} (h : Closing (n + 1) tokens) :
    ∃ r, ∀ rest, afterClosing 1 (tokens ++ rest) = some (r ++ rest) := by
  rcases afterClosing_append tokens (Nat.le_refl 1) with hfound | ⟨depth, hdepth, hgoOn⟩
  · exact hfound
  · have hend : ∃ d, depth + (n + 1) = d + 2 := ⟨depth + n - 1, by omega⟩
    obtain ⟨d, hd⟩ := hend
    have hclosed := h 0 [⟨.sign .closeParen, 1⟩]
    have hcount : 0 + (n + 1) + 1 = 1 + (n + 1) := by omega
    rw [hcount, hgoOn, hd] at hclosed
    cases hclosed

end

end Stencil.Routine
