import Stencil.Engine.Render
import Stencil.Proofs.Reading.Pieces

/-!
# Tokens of the routine of a tree

The routine of a printed tree has a line of its own for each line of the tree, so its tokens are
known line by line.

* `Path.lexemes`, `Line.lexemes` — what stands on the line of a routine that a line of a tree
  becomes;
* `tokensFrom` — the tokens of consecutive lines;
* `lex_source` — the tokens of the whole routine.
-/

namespace Stencil.Reading

open Text Template Routine

/-! ### Names and paths -/

/-- A lexeme on a line. -/
def onLine (line : Nat) (x : Lexeme) : Token := ⟨x, line⟩

/-- The lexemes of a path. -/
def Path.lexemes (p : Path) : List Lexeme :=
  .name p.head.name :: p.members.flatMap fun m => [.sign .dot, .name m.name]

theorem Identifier.lexes (i : Identifier) (line : Nat) {rest : List Char} (h : EndsName rest) :
    Lexes line (i.chars ++ rest) [onLine line (.name i.name)] line rest := by
  obtain ⟨chars, hvalid⟩ := i
  cases chars with
  | nil => cases hvalid
  | cons c cs =>
    rw [isIdentifier, Bool.and_eq_true] at hvalid
    exact Lexes.name line hvalid.1 hvalid.2 h

theorem lexes_members (members : List Identifier) (line : Nat) {rest : List Char}
    (h : EndsName rest) :
    Lexes line ((members.flatMap fun m => '.' :: m.chars) ++ rest)
      ((members.flatMap fun m => [.sign .dot, .name m.name]).map (onLine line)) line rest
    ∧ EndsName ((members.flatMap fun m => '.' :: m.chars) ++ rest) := by
  induction members with
  | nil => exact ⟨.nil line rest, h⟩
  | cons m members ih =>
    obtain ⟨hlexes, hends⟩ := ih
    have hname := m.lexes line hends
    obtain ⟨chars, hvalid⟩ := m
    cases chars with
    | nil => cases hvalid
    | cons c cs =>
      have hstart : startsName c = true := by
        rw [isIdentifier, Bool.and_eq_true] at hvalid
        exact hvalid.1
      refine ⟨?_, ?_⟩
      · rw [List.flatMap_cons, List.append_assoc]
        exact (Lexes.dot line hstart _).append (hname.append hlexes)
      · rintro d ⟨⟩
        decide

/-- A path is lexed into its lexemes. -/
theorem Path.lexes (p : Path) (line : Nat) {rest : List Char} (h : EndsName rest) :
    Lexes line (p.chars ++ rest) (p.lexemes.map (onLine line)) line rest := by
  obtain ⟨hmembers, hends⟩ := lexes_members p.members line h
  rw [Path.chars, List.append_assoc]
  exact (p.head.lexes line hends).append hmembers

/-! ### Lines -/

/-- The lexemes that begin every statement that writes. -/
def writing : List Lexeme := [.name outputName, .sign .addTo]

/-- What stands on the line of a routine that the line becomes. -/
def Line.lexemes : Line (List Char) → List Lexeme
  | .text cs => writing ++ [.text (String.ofList cs), .sign .semicolon]
  | .escaped p =>
    writing ++ [.name escapeName, .sign .openParen] ++ p.lexemes
      ++ [.sign .closeParen, .sign .semicolon]
  | .raw p =>
    writing ++ [.sign .openParen] ++ p.lexemes ++ [.sign .closeParen, .sign .semicolon]
  | .opensBranch p =>
    [.name "if", .sign .openParen] ++ p.lexemes ++ [.sign .closeParen, .sign .openBrace]
  | .alternates => [.sign .closeBrace, .name "else", .sign .openBrace]
  | .opensEach x p =>
    [.name "for", .sign .openParen, .name "const", .name x.name, .name "of"] ++ p.lexemes
      ++ [.sign .closeParen, .sign .openBrace]
  | .closes => [.sign .closeBrace]

section Lexing

variable (line : Nat) (rest : List Char)

/-- A word of the language in front of a space or a sign is a token. -/
theorem lexes_word (c : Char) (cs : List Char) (d : Char)
    (h : (startsName c && cs.all continuesName && !continuesName d) = true) :
    Lexes line (c :: (cs ++ d :: rest)) [onLine line (.name (String.ofList (c :: cs)))] line
      (d :: rest) := by
  rw [Bool.and_eq_true, Bool.and_eq_true, Bool.not_eq_true'] at h
  obtain ⟨⟨hc, hcs⟩, hd⟩ := h
  refine Lexes.name line hc hcs ?_
  rintro e ⟨⟩
  exact hd

theorem lexes_sign (p : Punctuator) (hp : p ∈ simpleSigns) :
    Lexes line (p.spelling ++ rest) [onLine line (.sign p)] line rest :=
  Lexes.simpleSign line hp rest

theorem lexes_writing :
    Lexes line ('_' :: (['_', 'o', 'u', 't'] ++ ' ' :: '+' :: '=' :: ' ' :: rest))
      (writing.map (onLine line)) line rest :=
  (lexes_word line _ '_' ['_', 'o', 'u', 't'] ' ' (by decide)).append
    ((Lexes.space line _).append ((Lexes.addTo line _).append (Lexes.space line _)))

/-- The end of a statement and of its line. -/
theorem lexes_semicolon :
    Lexes line (';' :: '\n' :: rest) [onLine line (.sign .semicolon)] (line + 1) rest :=
  (lexes_sign line _ .semicolon (by decide)).append (.newline line rest)

/-- The opening of a block and the end of its line. -/
theorem lexes_openBrace :
    Lexes line ('\x7b' :: '\n' :: rest) [onLine line (.sign .openBrace)] (line + 1) rest :=
  (lexes_sign line _ .openBrace (by decide)).append (.newline line rest)

/-- A parenthesis around a path closes behind it. -/
theorem lexes_path (p : Path) :
    Lexes line (p.chars ++ ')' :: rest) ((p.lexemes ++ [Lexeme.sign .closeParen]).map (onLine line))
      line rest := by
  have hends : EndsName (')' :: rest) := by
    rintro c ⟨⟩
    decide
  rw [List.map_append]
  exact (p.lexes line hends).append (lexes_sign line _ .closeParen (by decide))

end Lexing

/-- Each line of a tree is lexed into its lexemes. -/
theorem Line.lexes (l : Line (List Char)) (line : Nat) (rest : List Char) :
    Lexes line ((Template.line l.piece).toList ++ rest) (l.lexemes.map (onLine line)) (line + 1)
      rest := by
  cases l with
  | text cs =>
    have h := (lexes_writing line _).append
      ((Lexes.quoted line cs _).append (lexes_semicolon line rest))
    simpa [Line.piece, Template.line, outputName, Json.quote, Line.lexemes, onLine] using h
  | escaped p =>
    have h := (lexes_writing line _).append
      ((lexes_word line _ 'e' ['s', 'c', 'a', 'p', 'e', 'H', 'T', 'M', 'L'] '('
          (by decide)).append
        ((lexes_sign line _ .openParen (by decide)).append
          ((lexes_path line _ p).append (lexes_semicolon line rest))))
    simpa [Line.piece, Template.line, outputName, escapeName, Line.lexemes, onLine] using h
  | raw p =>
    have h := (lexes_writing line _).append
      ((lexes_sign line _ .openParen (by decide)).append
        ((lexes_path line _ p).append (lexes_semicolon line rest)))
    simpa [Line.piece, Template.line, outputName, Line.lexemes, onLine, Punctuator.spelling] using h
  | opensBranch p =>
    have h := (lexes_word line _ 'i' ['f'] ' ' (by decide)).append
      ((Lexes.space line _).append
        ((lexes_sign line _ .openParen (by decide)).append
          ((lexes_path line _ p).append
            ((Lexes.space line _).append (lexes_openBrace line rest)))))
    simpa [Line.piece, content, branchCode, Template.line, Line.lexemes, onLine,
      Punctuator.spelling] using h
  | alternates =>
    have h := (lexes_sign line _ .closeBrace (by decide)).append
      ((Lexes.space line _).append
        ((lexes_word line _ 'e' ['l', 's', 'e'] ' ' (by decide)).append
          ((Lexes.space line _).append (lexes_openBrace line rest))))
    simpa [Line.piece, content, elseCode, Template.line, Line.lexemes, onLine,
      Punctuator.spelling] using h
  | opensEach x p =>
    have hx : EndsName
        (' ' :: 'o' :: 'f' :: ' ' :: (p.chars ++ ')' :: ' ' :: '\x7b' :: '\n' :: rest)) := by
      rintro c ⟨⟩
      decide
    have h := (lexes_word line _ 'f' ['o', 'r'] ' ' (by decide)).append
      ((Lexes.space line _).append
        ((lexes_sign line _ .openParen (by decide)).append
          ((lexes_word line _ 'c' ['o', 'n', 's', 't'] ' ' (by decide)).append
            ((Lexes.space line _).append
              ((x.lexes line hx).append
                ((Lexes.space line _).append
                  ((lexes_word line _ 'o' ['f'] ' ' (by decide)).append
                    ((Lexes.space line _).append
                      ((lexes_path line _ p).append
                        ((Lexes.space line _).append (lexes_openBrace line rest)))))))))))
    simpa [Line.piece, content, eachCode, Template.line, Line.lexemes, onLine,
      Punctuator.spelling] using h
  | closes =>
    have h := (lexes_sign line _ .closeBrace (by decide)).append (Lexes.newline line rest)
    simpa [Line.piece, content, endCode, Template.line, Line.lexemes, onLine,
      Punctuator.spelling] using h

/-! ### The whole routine -/

/-- The tokens of consecutive lines. -/
def tokensFrom (line : Nat) : List (Line (List Char)) → List Token
  | [] => []
  | l :: ls => l.lexemes.map (onLine line) ++ tokensFrom (line + 1) ls

/-- Consecutive lines are lexed one after the other. -/
theorem lexes_lines (ls : List (Line (List Char))) (line : Nat) (rest : List Char) :
    Lexes line ((String.join (ls.map fun l => Template.line l.piece)).toList ++ rest)
      (tokensFrom line ls) (line + ls.length) rest := by
  induction ls generalizing line with
  | nil => exact .nil line rest
  | cons l ls ih =>
    have htail := ih (line + 1)
    have hcount : line + (l :: ls).length = line + 1 + ls.length := by
      rw [List.length_cons]
      omega
    rw [List.map_cons, String.join_cons, String.toList_append, List.append_assoc, hcount]
    exact (l.lexes line _).append htail

/-- The tokens in front of those of the tree: a data scope opens and the output begins empty. -/
def openingTokens : List Token :=
  [.name "with", .sign .openParen, .name dataName, .sign .closeParen, .sign .openBrace].map
      (onLine 1)
    ++ [.name "let", .name outputName, .sign .becomes, .text "", .sign .semicolon].map
      (onLine 2)

/-- The tokens behind those of the tree: the output is given back and the data scope closes. -/
def closingTokens (line : Nat) : List Token :=
  [.name "return", .name outputName, .sign .semicolon].map (onLine line)
    ++ [onLine (line + 1) (.sign .closeBrace)]

/-- The tokens of the routine of a tree with these lines. -/
def routineTokens (ls : List (Line (List Char))) : List Token :=
  openingTokens ++ (tokensFrom 3 ls ++ closingTokens (3 + ls.length))

theorem lexes_opening (rest : List Char) :
    Lexes 1
      (("with (" ++ dataName ++ ") \x7b\n" ++ "let " ++ outputName ++ " = \"\";\n").toList ++ rest)
      openingTokens 3 rest := by
  have scope (rest : List Char) := (lexes_word 1 _ 'w' ['i', 't', 'h'] ' ' (by decide)).append
    ((Lexes.space 1 _).append
      ((lexes_sign 1 _ .openParen (by decide)).append
        ((lexes_word 1 _ 'd' ['a', 't', 'a'] ')' (by decide)).append
          ((lexes_sign 1 _ .closeParen (by decide)).append
            ((Lexes.space 1 _).append (lexes_openBrace 1 rest))))))
  have output := (lexes_word 2 _ 'l' ['e', 't'] ' ' (by decide)).append
    ((Lexes.space 2 _).append
      ((lexes_word 2 _ '_' ['_', 'o', 'u', 't'] ' ' (by decide)).append
        ((Lexes.space 2 _).append
          ((Lexes.becomes 2 _).append
            ((Lexes.space 2 _).append
              ((Lexes.quoted 2 [] _).append (lexes_semicolon 2 rest)))))))
  simpa [dataName, outputName, openingTokens, onLine, Punctuator.spelling, Json.quoteChars] using
    (scope _).append output

/-- The last two lines of a routine. -/
def lastLines : String := "return " ++ outputName ++ ";\n" ++ "\x7d\n"

theorem lexes_closing (line : Nat) :
    Lexes line lastLines.toList (closingTokens line) (line + 2) [] := by
  have h := (lexes_word line _ 'r' ['e', 't', 'u', 'r', 'n'] ' ' (by decide)).append
    ((Lexes.space line _).append
      ((lexes_word line _ '_' ['_', 'o', 'u', 't'] ';' (by decide)).append
        ((lexes_semicolon line _).append
          ((lexes_sign (line + 1) _ .closeBrace (by decide)).append
            (Lexes.newline (line + 1) [])))))
  simpa [lastLines, outputName, closingTokens, onLine, Punctuator.spelling] using h

/-- The tokens of a routine are those of its first lines, of the lines of its pieces, and of its
last lines. -/
theorem lex_generate {pieces : List Piece} {tokens : List Token} {line : Nat}
    (h : Lexes 3 ((String.join (pieces.map Template.line)).toList ++ lastLines.toList) tokens line
      lastLines.toList) :
    ∃ last, lex (inDataScope (generate pieces))
      = .ok ⟨openingTokens ++ (tokens ++ closingTokens line), last⟩ := by
  have hwhole := (lexes_opening _).append (h.append (lexes_closing line))
  have hsource : (inDataScope (generate pieces)).toList
      = ("with (" ++ dataName ++ ") \x7b\n" ++ "let " ++ outputName ++ " = \"\";\n").toList
        ++ ((String.join (pieces.map Template.line)).toList ++ lastLines.toList) := by
    rw [inDataScope, generate, lastLines]
    simp only [String.toList_append, List.append_assoc]
  rw [lex]
  rw [hsource]
  exact ⟨_, lexChars_of_lexes hwhole⟩

/-- The tokens of the routine of a printed tree. -/
theorem lex_source (ns : List (Node TextRun)) :
    ∃ last, lex (inDataScope (generate (tokenize (print ns))))
      = .ok ⟨routineTokens (linesOf (mergeNodes [] ns)), last⟩ := by
  refine lex_generate ?_
  rw [tokenize_print, List.map_map]
  exact lexes_lines (linesOf (mergeNodes [] ns)) 3 lastLines.toList

end Stencil.Reading
