import Stencil.Proofs.Marks
import Stencil.Proofs.Reading.Routine
import Stencil.Template.Layout

/-!
# Templates that raise a message

A template whose only marker raises a message carries it as a quoted text.  Quoting keeps a text
together for the lexer, but the marker ends at the first two closing brackets, and quoting leaves
brackets as they are.  So a message without them is raised, and one with them is cut off inside its
quotes.

* `tokenize_raising`, `tokenize_raising_cut` — the pieces of such a template;
* `parse_raising`, `parse_raising_cut` — the program of its routine, or why there is none;
* `fails_raisingBody` — running that program raises the message.
-/

namespace Stencil.Reading

open Text Template Routine Routine.Parser

/-! ### The marker -/

/-- The word in front of what is raised. -/
def throwWord : List Char := ['t', 'h', 'r', 'o', 'w', ' ']

theorem toList_raising (m : String) :
    (raising m).toList
      = opening ++ ' ' :: (throwWord ++ Json.quoteChars m.toList ++ [' '] ++ closing) := by
  rw [raising]
  simp [Json.quote, opening, closing, throwWord]

/-- A template that begins with a marker. -/
theorem tokenize_marker {template : String} {c : Char} {inner rest behind : List Char}
    (h : template.toList = opening ++ c :: behind)
    (hcut : cut closing behind = some (inner, rest)) :
    ∃ bound, tokenize template = classify (c :: inner) :: tokenizeWithin bound rest := by
  refine ⟨behind.length + 2, ?_⟩
  have hopens : cut opening (opening ++ c :: behind) = some ([], c :: behind) :=
    cut_of_stripFront (stripFront_append opening _)
  have hcloses : closeMarker (c :: behind) = some (c :: inner, rest) := by
    rw [closeMarker, hcut]
    rfl
  have hlength : template.toList.length = behind.length + 2 + 1 := by
    rw [h]
    rfl
  rw [tokenize, hlength, h, tokenizeWithin, hopens]
  dsimp only
  rw [hcloses]
  rfl

/-- A message without two closing brackets stays together. -/
theorem tokenize_raising {m : String} (h : Apart ']' m.toList) :
    tokenize (raising m) = [.code ("throw " ++ Json.quote m)] := by
  have hapart : Apart ']' (throwWord ++ Json.quoteChars m.toList ++ [' ']) := by
    have hquoted : Apart ']' (m.toList.flatMap Json.quoteChar ++ ['"', ' ']) :=
      (h.flatMap_quoteChar (.inr rfl)).append_of_head (apart_of_notMem (by decide)) (by decide)
    have hfront : Apart ']' (throwWord ++ ['"']) := apart_of_notMem (by decide)
    have hwhole := hfront.append hquoted (by decide)
    simpa [Json.quoteChars] using hwhole
  have hcut := cut_pair hapart (by simp) []
  obtain ⟨bound, htokens⟩ := tokenize_marker (toList_raising m) hcut
  have htrim : trim (' ' :: (throwWord ++ Json.quoteChars m.toList ++ [' ']))
      = throwWord ++ Json.quoteChars m.toList := by
    refine trim_eq_iff.mpr ⟨⟨[' '], [' '], ?_, ?_, rfl⟩, ?_, ?_⟩
    · exact List.forall_mem_singleton.mpr (by decide)
    · exact List.forall_mem_singleton.mpr (by decide)
    · rintro c ⟨⟩
      decide
    · intro c hc
      simp only [Json.quoteChars, ← List.append_assoc, List.getLast?_concat, Option.mem_def,
        Option.some.injEq] at hc
      subst hc
      decide
  have hcode : classify (' ' :: (throwWord ++ Json.quoteChars m.toList ++ [' ']))
      = .code ("throw " ++ Json.quote m) := by
    refine (congrArg (fun cs => Piece.code (String.ofList cs)) htrim).trans ?_
    rw [String.ofList_append]
    rfl
  rw [htokens, hcode]
  cases bound <;> rfl

/-- A character that is quoted ends with a blank only if it is one. -/
theorem quoteChar_last (c : Char) :
    Json.quoteChar c = [c] ∨ ∀ d ∈ (Json.quoteChar c).getLast?, isBlank d = false := by
  have hdigit : ∀ n < 16, isBlank (Json.hexDigit n) = false := by decide
  have hpair {c : Char} (hc : isBlank c = false) :
      ∀ d ∈ ['\\', c].getLast?, isBlank d = false := by
    rintro d ⟨⟩
    exact hc
  rw [Json.quoteChar]
  split_ifs
  · exact .inr (hpair rfl)
  · exact .inr (hpair rfl)
  · exact .inl rfl
  · exact .inr (hpair rfl)
  · exact .inr (hpair rfl)
  · exact .inr (hpair rfl)
  · exact .inr (hpair rfl)
  · exact .inr (hpair rfl)
  · refine .inr ?_
    rintro d ⟨⟩
    exact hdigit _ (Nat.mod_lt _ (by decide))

theorem trimEnd_of_last {cs : List Char} (h : ∀ c ∈ cs.getLast?, isBlank c = false) :
    trimEnd cs = cs :=
  trimEnd_eq_iff.mpr ⟨[], nofun, (List.append_nil cs).symm, h⟩

theorem trimEnd_append_blank (cs : List Char) {c : Char} (h : isBlank c = true) :
    trimEnd (cs ++ [c]) = trimEnd cs := by
  rw [trimEnd, List.reverse_append]
  exact congrArg List.reverse (List.dropWhile_cons_of_pos h)

/-- Trimming a quoted text takes whole characters from its end. -/
theorem exists_trimEnd_quoted {front : List Char} {q : Char} (hq : isBlank q = false)
    (cs : List Char) :
    ∃ ds : List Char, trimEnd (front ++ q :: cs.flatMap Json.quoteChar)
      = front ++ q :: ds.flatMap Json.quoteChar := by
  induction cs using List.reverseRecOn with
  | nil =>
    refine ⟨[], trimEnd_of_last fun c hc => ?_⟩
    rw [List.flatMap_nil, List.getLast?_concat] at hc
    cases hc
    exact hq
  | append_singleton cs c ih =>
    have hsplit : front ++ q :: (cs ++ [c]).flatMap Json.quoteChar
        = front ++ q :: cs.flatMap Json.quoteChar ++ Json.quoteChar c := by
      simp
    by_cases hblank : Json.quoteChar c = [c] ∧ isBlank c = true
    · rw [hsplit, hblank.1, trimEnd_append_blank _ hblank.2]
      exact ih
    · refine ⟨cs ++ [c], trimEnd_of_last ?_⟩
      obtain ⟨d, ds, hds⟩ := exists_cons_quoteChar c
      rw [hsplit, List.getLast?_append_of_ne_nil _ (by rw [hds]; exact List.cons_ne_nil d ds)]
      rcases quoteChar_last c with hc | hlast
      · rw [hc]
        rintro d ⟨⟩
        exact Bool.eq_false_iff.mpr fun h => hblank ⟨hc, h⟩
      · exact hlast

/-- What stands in front of the first pair of a character has no pair, and does not end with half of
one. -/
theorem apart_of_cut {d : Char} {cs front rest : List Char}
    (h : cut [d, d] cs = some (front, rest)) : Apart d front ∧ front.getLast? ≠ some d := by
  obtain ⟨hcs, hleft⟩ := cut_eq_some_iff.mp h
  constructor
  · rw [apart_iff, contains, Option.isSome_eq_false_iff, Option.isNone_iff_eq_none, cut_eq_none_iff]
    intro i hi
    have hlt : i < front.length := by
      by_contra hle
      rw [List.drop_eq_nil_of_le (Nat.le_of_not_lt hle)] at hi
      exact absurd (List.prefix_nil.mp hi) (List.cons_ne_nil _ _)
    refine hleft i hlt ?_
    rw [hcs, List.drop_append_of_le_length (Nat.le_of_lt hlt)]
    exact hi.trans (List.prefix_append _ _)
  · intro hlast
    obtain ⟨front', rfl⟩ := List.getLast?_eq_some_iff.mp hlast
    refine hleft front'.length (by simp) ?_
    rw [hcs, List.append_assoc, List.drop_left]
    exact ⟨d :: rest, rfl⟩

/-- A quoted text ends with a bracket only if the text does. -/
theorem getLast?_flatMap_quoteChar {b : Char} (hb : b = '[' ∨ b = ']') {cs : List Char}
    (h : cs.getLast? ≠ some b) : (cs.flatMap Json.quoteChar).getLast? ≠ some b := by
  rcases List.eq_nil_or_concat cs with rfl | ⟨cs, c, rfl⟩
  · exact nofun
  · rw [List.concat_eq_append, List.getLast?_concat, ne_eq, Option.some.injEq] at h
    obtain ⟨d, ds, hds⟩ := exists_cons_quoteChar c
    rw [List.concat_eq_append, List.flatMap_append, List.flatMap_singleton,
      List.getLast?_append_of_ne_nil _ (by rw [hds]; exact List.cons_ne_nil d ds)]
    exact fun hlast => notMem_quoteChar hb (Ne.symm h) (List.mem_of_getLast? hlast)

/-- A message with two closing brackets is cut off inside its quotes. -/
theorem tokenize_raising_cut {m : String} (h : ¬ Apart ']' m.toList) :
    ∃ (ds : List Char) (pieces : List Piece), tokenize (raising m)
      = .code (String.ofList (throwWord ++ '"' :: ds.flatMap Json.quoteChar)) :: pieces := by
  obtain ⟨⟨front, back⟩, hfound⟩ : ∃ parts, cut closing m.toList = some parts := by
    rw [apart_iff, Bool.not_eq_false] at h
    exact Option.isSome_iff_exists.mp h
  obtain ⟨hapart, hlast⟩ := apart_of_cut hfound
  obtain ⟨ds, hds⟩ : ∃ ds : List Char, trimEnd (throwWord ++ '"' :: front.flatMap Json.quoteChar)
      = throwWord ++ '"' :: ds.flatMap Json.quoteChar := exists_trimEnd_quoted (by decide) front
  have hbehind : throwWord ++ Json.quoteChars m.toList ++ [' '] ++ closing
      = (throwWord ++ ['"']) ++ front.flatMap Json.quoteChar
        ++ ']' :: ']' :: (back.flatMap Json.quoteChar ++ '"' :: ' ' :: closing) := by
    rw [(cut_eq_some_iff.mp hfound).1]
    simp [Json.quoteChars, closing, show Json.quoteChar ']' = [']'] from rfl]
  have hcut : cut closing (throwWord ++ Json.quoteChars m.toList ++ [' '] ++ closing)
      = some (throwWord ++ ['"'] ++ front.flatMap Json.quoteChar,
          back.flatMap Json.quoteChar ++ '"' :: ' ' :: closing) := by
    rw [hbehind]
    refine cut_pair ?_ ?_ _
    · exact (apart_of_notMem (by decide)).append (hapart.flatMap_quoteChar (.inr rfl)) (by decide)
    · rw [List.getLast?_append]
      intro h
      rcases Option.or_eq_some_iff.mp h with h | ⟨-, h⟩
      · exact getLast?_flatMap_quoteChar (.inr rfl) hlast h
      · exact absurd h (by decide)
  obtain ⟨bound, htokens⟩ := tokenize_marker (toList_raising m) hcut
  have hclassify : classify (' ' :: (throwWord ++ ['"'] ++ front.flatMap Json.quoteChar))
      = .code (String.ofList (trimEnd (throwWord ++ '"' :: front.flatMap Json.quoteChar))) := by
    rw [List.append_assoc]
    rfl
  rw [hclassify, hds] at htokens
  exact ⟨ds, _, htokens⟩

/-! ### Tokens -/

/-- A quotation that is cut off by the end of its line is a fault on that line. -/
theorem step_broken (cs rest : List Char) (line : Nat) :
    step line '"' (cs.flatMap Json.quoteChar ++ '\n' :: rest) = .error ⟨line, .openString⟩ := by
  obtain ⟨bound, hread⟩ :=
    readString_behind (Json.spelled_flatMap_quoteChar cs) line ('\n' :: rest)
  show (readString '"' _ line [] _).map _ = _
  rw [hread]
  rfl

theorem lexes_throwWord (line : Nat) (rest : List Char) :
    Lexes line (throwWord ++ rest) [onLine line (.name "throw")] line rest := by
  have h := (lexes_word line rest 't' ['h', 'r', 'o', 'w'] ' ' (by decide)).append
    (Lexes.space line rest)
  simpa [throwWord] using h

/-- A cut off message leaves a text open on the line of its marker. -/
theorem lex_broken (ds : List Char) (pieces : List Piece) :
    lex (inDataScope (generate
        (.code (String.ofList (throwWord ++ '"' :: ds.flatMap Json.quoteChar)) :: pieces)))
      = .error ⟨3, .openString⟩ := by
  obtain ⟨rest, hsource⟩ : ∃ rest, (inDataScope (generate
        (.code (String.ofList (throwWord ++ '"' :: ds.flatMap Json.quoteChar)) :: pieces))).toList
      = ("with (" ++ dataName ++ ") \x7b\n" ++ "let " ++ outputName ++ " = \"\";\n").toList
        ++ (throwWord ++ '"' :: (ds.flatMap Json.quoteChar ++ '\n' :: rest)) := by
    refine ⟨(String.join (pieces.map Template.line)).toList ++ lastLines.toList, ?_⟩
    rw [inDataScope, generate, lastLines, List.map_cons, String.join_cons]
    simp only [Template.line, String.toList_append, String.toList_ofList, List.append_assoc,
      List.cons_append]
    rfl
  have hfront := (lexes_opening _).append
    (lexes_throwWord 3 ('"' :: (ds.flatMap Json.quoteChar ++ '\n' :: rest)))
  rw [lex, hsource, hfront.lexChars_eq, List.length_cons, lexWithin, step_broken]
  rfl

/-- The tokens of the line of a message. -/
def raisingTokens (m : String) : List Token := [onLine 3 (.name "throw"), onLine 3 (.text m)]

theorem lex_raising (m : String) :
    ∃ last, lex (inDataScope (generate [.code ("throw " ++ Json.quote m)]))
      = .ok ⟨openingTokens ++ (raisingTokens m ++ closingTokens 4), last⟩ := by
  refine lex_generate ?_
  have h := (lexes_throwWord 3 _).append
    ((Lexes.quoted 3 m.toList _).append (Lexes.newline 3 lastLines.toList))
  rw [String.ofList_toList] at h
  have hline : (String.join ([Piece.code ("throw " ++ Json.quote m)].map Template.line)).toList
      ++ lastLines.toList
      = throwWord ++ (Json.quoteChars m.toList ++ '\n' :: lastLines.toList) := by
    simp [Template.line, Json.quote, throwWord]
  rw [hline]
  exact h

/-! ### The program -/

/-- The statements of the routine of a message. -/
def raisingStmts (m : String) : List Stmt := [.raise (.text m)]

/-- A text behind which a line begins with a word is read off. -/
theorem gives_expression_textEnd (line after : Nat) (m s : String) (rest : List Token) :
    Gives (expression · 0) 3 (onLine line (.text m) :: onLine after (.name s) :: rest) (.text m)
      (onLine after (.name s) :: rest) := by
  have hselections : Gives (selections · (.text m)) 1 (onLine after (.name s) :: rest) (.text m)
      (onLine after (.name s) :: rest) := by
    refine Gives.succ ?_
    intro bound _ last
    rw [selections]
    rfl
  have hcontinue : Gives (continueWith · 0 (.text m)) 1 (onLine after (.name s) :: rest) (.text m)
      (onLine after (.name s) :: rest) := by
    refine Gives.succ ?_
    intro bound _ last
    rw [continueWith]
    rfl
  have hoperand := gives_operand rfl rfl (gives_primary_text line m) hselections
  exact gives_expression hoperand (hcontinue.mono (by omega))

/-- Raising a message is read off. -/
theorem gives_statement_raise (m : String) (after : Nat) (s : String) (rest : List Token) :
    Gives statement 4 (raisingTokens m ++ onLine after (.name s) :: rest) (.raise (.text m))
      (onLine after (.name s) :: rest) := by
  have hvalue := gives_expression_textEnd 3 after m s rest
  refine Gives.succ ?_
  intro bound hbound last
  have hstart : statement (bound + 1) ⟨raisingTokens m ++ onLine after (.name s) :: rest, last⟩
      = (expression bound 0 >>= fun e => do
          endStatement
          return .raise e)
        ⟨onLine 3 (.text m) :: onLine after (.name s) :: rest, last⟩ := by
    rw [statement]
    rfl
  rw [hstart]
  exact (bind_ok (hvalue bound hbound last)).trans rfl

/-- The program of the routine of a message. -/
def raisingBody (m : String) : List Stmt :=
  [.within (.name dataName) false
    (.declare .variable [(outputName, some (.text ""))]
      :: (raisingStmts m ++ [.giveBack (some (.name outputName))]))]

theorem parse_raising {m : String} (h : Apart ']' m.toList) (params : List String) :
    parseProgram params (inDataScope (generate (tokenize (raising m))))
      = .ok ⟨params, raisingBody m⟩ := by
  obtain ⟨last, hlex⟩ := lex_raising m
  have hstmts : Gives statements 6 (raisingTokens m ++ closingTokens 4)
      (raisingStmts m ++ [.giveBack (some (.name outputName))]) [] :=
    gives_statements_cons ((gives_statement_raise m 4 "return" _).mono (by omega))
      (gives_statements_closing 4)
  rw [tokenize_raising h, parseProgram]
  rw [hlex]
  exact parseTokens_inScope params (by simp [raisingTokens]) hstmts last

/-- Where a message is cut off, its line is at fault. -/
theorem parse_raising_cut {m : String} (h : ¬ Apart ']' m.toList) (params : List String) :
    parseProgram params (inDataScope (generate (tokenize (raising m))))
      = .error (.fault ⟨3, .openString⟩) := by
  obtain ⟨ds, pieces, htokens⟩ := tokenize_raising_cut h
  rw [htokens, parseProgram]
  rw [lex_broken]

theorem numbered_raisingBody (params : List String) (m : String) :
    Program.numbered ⟨params, raisingBody m⟩ = ⟨params, raisingBody m⟩ := rfl

/-! ### The run -/

/-- Running the program raises the message. -/
theorem fails_raisingBody (m : String) (around : Surroundings) (store : Store) {data : Value}
    {place inner : Nat} (hdata : (store.heap.frame place).get? dataName = some ⟨data, true⟩)
    (hempty : store.heap.frame inner = .empty) (bound : Nat) :
    ∃ after, inOrder (exec (bound + 4) around [.locals inner, .locals place]) (raisingBody m) store
      = .error (.failed (.raised m)) after := by
  have hwithin := exec_within around store hdata hempty (bound + 1)
    (raisingStmts m ++ [.giveBack (some (.name outputName))])
  refine ⟨{ store with heap := started store.heap }, ?_⟩
  refine run_bind_error (hwithin.trans ?_)
  rw [raisingStmts, List.singleton_append, inOrder]
  refine run_bind_error ?_
  have hraised (store : Store) : raisedText (.text m) store = .ok m store := by
    refine (run_bind_ok rfl).trans ?_
    rw [display_text]
    rfl
  rw [exec, eval]
  exact (run_bind_ok rfl).trans (run_bind_ok (hraised _))

end Stencil.Reading
