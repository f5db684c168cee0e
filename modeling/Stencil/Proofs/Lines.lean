import Mathlib.Data.List.Forall2
import Stencil.Proofs.Embedding

/-!
# Lines of a source

A source that breaks at the end of a line has the tokens of its two parts, those of the second part
on lines further down; if the second part has a fault, so has the source, further down.  The line of
a token is the number of line ends in front of its first character, counted from one.

* `lexWithin_down` — the lexer finds the same on lines further down, faults included;
* `Lexeme.Heads`, `tokenPlaces` — what the front of a text must be for a token to begin there, and
  where the tokens of a source begin;
* `standsAt_of_lexWithin` — every token stands at its place, on the line of that place;
* `lex_append_line` — the main theorem.
-/

namespace Stencil.Routine

open Stencil.Text

/-! ### Further down -/

/-- The tokens of a source that begins on a line further down. -/
def Lexed.down (k : Nat) (l : Lexed) : Lexed := ⟨l.tokens.map (Token.down k), l.endLine + k⟩

/-- The lexer finds the same on lines further down. -/
theorem lexWithin_down (k bound line : Nat) (seen : List Token) (cs : List Char) :
    lexWithin bound (line + k) (seen.map (Token.down k)) cs
      = lowered k (Lexed.down k) (lexWithin bound line seen cs) := by
  have hend (line : Nat) (seen : List Token) :
      Except.ok ⟨(seen.map (Token.down k)).reverse, line + k⟩
        = lowered k (Lexed.down k) (.ok ⟨seen.reverse, line⟩) := by
    rw [← List.map_reverse]
    rfl
  induction bound generalizing line seen cs with
  | zero => cases cs <;> exact hend line seen
  | succ bound ih =>
    cases cs with
    | nil => exact hend line seen
    | cons c cs =>
      rw [lexWithin, lexWithin, step_down]
      cases step line c cs with
      | error e => rfl
      | ok found =>
        obtain ⟨token, last, rest⟩ := found
        cases token with
        | none => exact ih last seen rest
        | some token => exact ih last (token :: seen) rest

/-! ### Places of tokens -/

/-- A lexeme stands at the front of a text. -/
def Lexeme.Heads : Lexeme → List Char → Prop
  | .number x, cs =>
    startsNumber cs = true ∧ ∃ digits, digits <+: cs ∧ Decimal.readChars? digits = some x
  | .text s, cs =>
    ∃ quote inner line last rest, cs = quote :: inner ∧ (quote = '"' ∨ quote = '\''
      ∨ quote = Char.ofNat 96)
      ∧ readString quote (inner.length + 1) line [] inner = .ok (s, last, rest)
  | .name s, cs => (∃ c ∈ cs.head?, startsName c = true) ∧ s.toList <+: cs
  | .sign p, cs => p.spelling <+: cs

/-- The token of a step stands at the place of the step. -/
theorem StepCase.heads {line : Nat} {c : Char} {cs : List Char} {found : Step}
    (h : StepCase line c cs found) : ∀ token ∈ found.token, token.lexeme.Heads (c :: cs) := by
  cases h with
  | newline _ => exact nofun
  | blank _ => exact nofun
  | lineComment _ => exact nofun
  | spanComment _ _ => exact nofun
  | number hstarts hx =>
    rintro token ⟨⟩
    exact ⟨hstarts, _, ⟨_, (numberSpan_append_self (c :: cs)).1⟩, hx⟩
  | text hread hquote =>
    rintro token ⟨⟩
    exact ⟨c, cs, line, _, _, rfl, hquote, hread⟩
  | name hname =>
    rintro token ⟨⟩
    refine ⟨⟨c, rfl, hname⟩, ?_⟩
    rw [String.toList_ofList]
    exact List.cons_prefix_cons.mpr ⟨rfl, List.takeWhile_prefix _⟩
  | sign hsign =>
    rintro token ⟨⟩
    exact ⟨_, (eq_of_punctuator? hsign).symm⟩

/-! ### Whole sources -/

/-- The places where at most `bound` steps find tokens; `cs` begins at the given place. -/
def tokenPlacesWithin : Nat → Nat → Nat → List Char → List Nat
  | bound + 1, line, place, c :: cs =>
    match step line c cs with
    | .error _ => []
    | .ok found =>
      let later := tokenPlacesWithin bound found.line
        (place + ((c :: cs).length - found.rest.length)) found.rest
      if found.token.isSome then place :: later else later
  | _, _, _, _ => []

/-- The places where the tokens of a source begin, counted in characters. -/
def tokenPlaces (source : String) : List Nat :=
  tokenPlacesWithin source.toList.length 1 0 source.toList

example : tokenPlaces "a /* b\n */ += `c\nd`\n// e\n;" = [0, 11, 14, 25] := rfl

/-- A token stands at a place of the source, on the line of that place. -/
def Token.StandsAt (source : List Char) (token : Token) (place : Nat) : Prop :=
  token.line = 1 + (source.take place).count '\n' ∧ token.lexeme.Heads (source.drop place)

theorem standsAt_of_lexWithin {bound line last : Nat} (before : List Char) {cs : List Char}
    {tokens : List Token} (hbound : cs.length ≤ bound) (hline : line = 1 + before.count '\n')
    (h : lexWithin bound line [] cs = .ok ⟨tokens, last⟩) :
    last = 1 + (before ++ cs).count '\n'
      ∧ List.Forall₂ (Token.StandsAt (before ++ cs)) tokens
          (tokenPlacesWithin bound line before.length cs) := by
  induction bound generalizing line before cs tokens with
  | zero =>
    cases cs with
    | nil =>
      cases h
      rw [List.append_nil]
      exact ⟨hline, .nil⟩
    | cons c cs => cases hbound
  | succ bound ih =>
    cases cs with
    | nil =>
      cases h
      rw [List.append_nil]
      exact ⟨hline, .nil⟩
    | cons c cs =>
      have hlength : cs.length ≤ bound := Nat.le_of_succ_le_succ hbound
      obtain ⟨found, others, hstep, hothers, rfl⟩ := lexWithin_cons hlength h
      have hcase := stepCase hstep
      obtain ⟨used, hused, hlast⟩ := Passes.cons hcase.passes
      have hwhole : before ++ c :: cs = (before ++ used) ++ found.rest := by
        rw [hused, List.append_assoc]
      have hplace : before.length + ((c :: cs).length - found.rest.length)
          = (before ++ used).length := by
        rw [hused, List.length_append, List.length_append, Nat.add_sub_cancel]
      have hnext : found.line = 1 + (before ++ used).count '\n' := by
        rw [hlast, hline, List.count_append, Nat.add_assoc]
      obtain ⟨hend, hlater⟩ :=
        ih (before ++ used) (Nat.le_trans (length_step hstep) hlength) hnext hothers
      rw [tokenPlacesWithin, hstep]
      dsimp only
      rw [hplace]
      rw [← hwhole] at hend hlater
      refine ⟨hend, ?_⟩
      cases htoken : found.token with
      | none => exact hlater
      | some token =>
        refine .cons ⟨?_, ?_⟩ hlater
        · rw [List.take_left, hcase.line_token token htoken, hline]
        · rw [List.drop_left]
          exact hcase.heads token htoken

/-- **Lexing is compositional at line ends.**  Behind a source that has tokens and a line end,
another source has the tokens and faults that it has alone, further down by the lines passed over;
and each token stands on the line of its first character. -/
theorem lex_append_line {a : String} {l : Lexed} (h : lex a = .ok l) (b : String) :
    lex (a ++ "\n" ++ b)
        = (match lex b with
          | .ok l' => .ok ⟨l.tokens ++ l'.tokens.map (Token.down (1 + a.toList.count '\n')),
              l'.endLine + (1 + a.toList.count '\n')⟩
          | .error e => .error ⟨e.line + (1 + a.toList.count '\n'), e.fault⟩)
      ∧ l.endLine = 1 + a.toList.count '\n'
      ∧ List.Forall₂ (Token.StandsAt a.toList) l.tokens (tokenPlaces a) := by
  obtain ⟨tokens, last⟩ := l
  obtain ⟨hend, hplaces⟩ := standsAt_of_lexWithin [] (Nat.le_refl _) rfl h
  refine ⟨?_, hend, hplaces⟩
  rw [List.nil_append] at hend
  have hsame : tokens.map (Token.down 0) = tokens := List.map_id tokens
  have hfront := lexes_inside Stops.newline h (fun _ => rfl) 0 b.toList
  rw [hsame] at hfront
  have hwhole : (a ++ "\n" ++ b).toList = a.toList ++ '\n' :: b.toList := by
    rw [String.toList_append, String.toList_append, List.append_assoc]
    rfl
  have hbehind := (hfront.append (.newline (last + 0) b.toList)).lexChars_eq
  have hdown := lexWithin_down (1 + a.toList.count '\n') b.toList.length 1 [] b.toList
  rw [List.append_nil, ← hwhole, Nat.add_zero, Nat.add_comm last, hend] at hbehind
  rw [List.map_nil] at hdown
  rw [lex, hbehind, hdown]
  show _ = match lexWithin b.toList.length 1 [] b.toList with
    | .ok _ => _
    | .error _ => _
  cases lexWithin b.toList.length 1 [] b.toList with
  | error e => rfl
  | ok l' =>
    show Except.ok (Lexed.behind tokens.reverse (l'.down _)) = _
    rw [Lexed.behind, List.reverse_reverse]
    rfl

/-- A comment and a string that span lines, and a comment that the line end between the sources
closes; behind it stands a source with a token, and one with a string that has no end. -/
theorem lex_append_line_spanning :
    lex "a /* b\n */ = `c\nd` // '"
        = .ok ⟨[⟨.name "a", 1⟩, ⟨.sign .becomes, 2⟩, ⟨.text "c\nd", 2⟩], 3⟩
      ∧ lex ("a /* b\n */ = `c\nd` // '" ++ "\n" ++ "\ne")
        = .ok ⟨[⟨.name "a", 1⟩, ⟨.sign .becomes, 2⟩, ⟨.text "c\nd", 2⟩, ⟨.name "e", 5⟩], 5⟩
      ∧ lex ("a /* b\n */ = `c\nd` // '" ++ "\n" ++ "'e") = .error ⟨4, .openString⟩ := by
  have hfront : lex "a /* b\n */ = `c\nd` // '"
      = .ok ⟨[⟨.name "a", 1⟩, ⟨.sign .becomes, 2⟩, ⟨.text "c\nd", 2⟩], 3⟩ := rfl
  have htoken : lex "\ne" = .ok ⟨[⟨.name "e", 2⟩], 2⟩ := rfl
  have hfault : lex "'e" = .error ⟨1, .openString⟩ := rfl
  refine ⟨hfront, ?_, ?_⟩
  · rw [(lex_append_line hfront "\ne").1, htoken]
    rfl
  · rw [(lex_append_line hfront "'e").1, hfault]
    rfl

end Stencil.Routine
