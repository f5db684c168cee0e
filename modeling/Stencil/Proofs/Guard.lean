import Stencil.Engine.Plugin
import Stencil.Proofs.Kept
import Stencil.Proofs.LikeRendering
import Stencil.Proofs.Loosening
import Stencil.Proofs.Reading.Parsing
import Stencil.Proofs.Watched

/-!
# Guarded engines

An engine that guards its data scope differs from one that does not in the word with which the
scope opens.  Both compile the same templates, and a routine of the guarded engine that does not
refuse a name does what the routine of the other engine does.

* `parse_scopes` — the programs of a source in either scope differ in the mark of the scope;
* `Helper.IgnoresGuards` — helpers that do not look at the scopes of functions;
* `executes_within`, `settles_renderTop` — routines that differ in the mark come to the same;
* `compile_guard_error_iff`, `renderMade_guard` — what a guard changes of compiling and rendering;
* `guard_restricts` — the main theorem.
-/

namespace Stencil

open Routine Routine.Parser Reading Template

/-! ### The source in either scope -/

/-- The tokens that open a data scope with this word. -/
def scopeTokens (word : String) : List Token :=
  [.name word, .sign .openParen, .name dataName, .sign .closeParen, .sign .openBrace].map (onLine 1)

theorem lexes_scope (c : Char) (cs : List Char)
    (h : (startsName c && cs.all continuesName && !continuesName ' ') = true) (rest : List Char) :
    Lexes 1 (c :: (cs ++ (" (" ++ dataName ++ ") \x7b\n").toList ++ rest))
      (scopeTokens (String.ofList (c :: cs))) 2 rest := by
  have scope (rest : List Char) := (lexes_word 1 _ c cs ' ' h).append
    ((Lexes.space 1 _).append
      ((lexes_sign 1 _ .openParen (by decide)).append
        ((lexes_word 1 _ 'd' ['a', 't', 'a'] ')' (by decide)).append
          ((lexes_sign 1 _ .closeParen (by decide)).append
            ((Lexes.space 1 _).append (lexes_openBrace 1 rest))))))
  simpa [dataName, scopeTokens, onLine, Punctuator.spelling] using scope rest

/-- What follows the opening of a data scope: the statements in it, and those behind it. -/
def scopeBody (bound : Nat) (guarded : Bool) : Parser (List Stmt) := do
  let body ← statements bound
  let rest ← topStatements (bound + 2)
  return .within (.name dataName) guarded body :: rest

theorem statement_scope {word : String} (hword : word = "with" ∨ word = "strict") (bound : Nat)
    (tokens : List Token) (last : Nat) :
    statement (bound + 5) ⟨scopeTokens word ++ tokens, last⟩
      = (statements (bound + 3) >>= fun body =>
          return .within (.name dataName) (word == "strict") body) ⟨tokens, last⟩ := by
  have hobject := gives_expression_name 1 dataName 0 rfl rfl
    (endsOperand_closeParen 1 (onLine 1 (.sign .openBrace) :: tokens))
  have hstart : statement (bound + 5) ⟨scopeTokens word ++ tokens, last⟩
      = (expression (bound + 4) 0 >>= fun object => do
          expect .closeParen
          return .within object (word == "strict") (← block (bound + 4)))
        ⟨onLine 1 (.name dataName) :: onLine 1 (.sign .closeParen)
          :: onLine 1 (.sign .openBrace) :: tokens, last⟩ := by
    rcases hword with rfl | rfl
    · rw [statement]
      rfl
    · rw [statement]
      rfl
  rw [hstart]
  refine (bind_ok (hobject (bound + 4) (by omega) last)).trans ?_
  refine (bind_ok rfl).trans ?_
  rw [block]
  rfl

/-- A scope word begins a scope. -/
theorem topStatements_scope {word : String} (hword : word = "with" ∨ word = "strict") (bound : Nat)
    (tokens : List Token) (last : Nat) :
    topStatements (bound + 6) ⟨scopeTokens word ++ tokens, last⟩
      = scopeBody (bound + 3) (word == "strict") ⟨tokens, last⟩ := by
  rw [topStatements]
  refine (bind_ok rfl).trans ?_
  show (statement (bound + 5) >>= fun s => do return s :: (← topStatements (bound + 5)))
    ⟨scopeTokens word ++ tokens, last⟩ = _
  show ((statement (bound + 5) ⟨scopeTokens word ++ tokens, last⟩) >>= fun result =>
    (do return result.1 :: (← topStatements (bound + 5)) : Parser (List Stmt)) result.2) = _
  rw [statement_scope hword]
  show (((statements (bound + 3) ⟨tokens, last⟩) >>= fun result =>
    (return .within (.name dataName) (word == "strict") result.1 : Parser Stmt) result.2) >>= _)
    = ((statements (bound + 3) ⟨tokens, last⟩) >>= fun result => _)
  cases statements (bound + 3) ⟨tokens, last⟩ with
  | error stop => rfl
  | ok result => rfl

/-- What a source in a scope is read as, given what is found behind the opening of the scope. -/
theorem parse_scope (params : List String) (inner : String) {word : String}
    (hword : word = "with" ∨ word = "strict") (c : Char) (cs : List Char)
    (hcs : word = String.ofList (c :: cs))
    (hc : (startsName c && cs.all continuesName && !continuesName ' ') = true) :
    parseProgram params (word ++ " (" ++ dataName ++ ") \x7b\n" ++ inner ++ "\x7d\n")
      = match lexWithin (inner ++ "\x7d\n").toList.length 2 [] (inner ++ "\x7d\n").toList with
        | .error e => .error (.fault e)
        | .ok l => (scopeBody (callBound (l.tokens.length + 5) - 3) (word == "strict")
            ⟨l.tokens, l.endLine⟩).map fun result => ⟨params, result.1⟩ := by
  have hsource : (word ++ " (" ++ dataName ++ ") \x7b\n" ++ inner ++ "\x7d\n").toList
      = c :: (cs ++ (" (" ++ dataName ++ ") \x7b\n").toList ++ (inner ++ "\x7d\n").toList) := by
    rw [hcs]
    simp only [String.toList_append, String.toList_ofList, List.append_assoc, List.cons_append]
  rw [parseProgram, lex, hsource]
  have hlex := (lexes_scope c cs hc (inner ++ "\x7d\n").toList)
  rw [hlex.lexChars_eq, ← hcs]
  cases lexWithin (inner ++ "\x7d\n").toList.length 2 [] (inner ++ "\x7d\n").toList with
  | error e => rfl
  | ok l =>
    obtain ⟨bound, hbound⟩ : ∃ b, callBound (l.tokens.length + 5) = b + 6 :=
      ⟨callBound (l.tokens.length + 5) - 6, by unfold callBound; omega⟩
    have hlength : (scopeTokens word ++ l.tokens).length = l.tokens.length + 5 := by
      rw [List.length_append, Nat.add_comm]
      rfl
    have hbody : callBound (l.tokens.length + 5) - 3 = bound + 3 := by omega
    show parseTokens params ⟨(scopeTokens word).reverse.reverse ++ l.tokens, l.endLine⟩ = _
    rw [List.reverse_reverse, parseTokens]
    show ((topStatements (callBound (scopeTokens word ++ l.tokens).length))
      ⟨scopeTokens word ++ l.tokens, l.endLine⟩).map _ = _
    rw [hlength, hbound, topStatements_scope hword]
    dsimp only
    rw [hbody]

/-- **Both scopes are compiled alike**: the source has a fault in either scope or in neither, and
the programs differ in the mark of the scope. -/
theorem parse_scopes (params : List String) (inner : String) :
    (∃ stop, parseProgram params (inDataScope inner) = .error stop
      ∧ parseProgram params (inGuardedScope inner) = .error stop)
    ∨ ∃ body rest,
      parseProgram params (inDataScope inner)
          = .ok ⟨params, .within (.name dataName) false body :: rest⟩
        ∧ parseProgram params (inGuardedScope inner)
          = .ok ⟨params, .within (.name dataName) true body :: rest⟩ := by
  have hdata := parse_scope params inner (.inl rfl) 'w' ['i', 't', 'h'] rfl
    (by decide)
  have hguarded := parse_scope params inner (.inr rfl) 's'
    ['t', 'r', 'i', 'c', 't'] rfl (by decide)
  have hdataEq : parseProgram params (inDataScope inner) = _ := hdata
  have hguardedEq : parseProgram params (inGuardedScope inner) = _ := hguarded
  rw [hdataEq, hguardedEq]
  cases lexWithin (inner ++ "\x7d\n").toList.length 2 [] (inner ++ "\x7d\n").toList with
  | error e => exact .inl ⟨_, rfl, rfl⟩
  | ok l =>
    -- Up to the mark, the scopes go on in the same way.
    have hscope (bound : Nat) (guarded : Bool) (i : Input) :
        (scopeBody bound guarded i).map (fun result => (⟨params, result.1⟩ : Program))
          = ((do return (← statements bound, ← topStatements (bound + 2)) :
              Parser (List Stmt × List Stmt)) i).map fun result =>
            ⟨params, .within (.name dataName) guarded result.1.1 :: result.1.2⟩ := by
      show ((statements bound i >>= fun r => topStatements (bound + 2) r.2 >>= fun t =>
          Except.ok (.within (.name dataName) guarded r.1 :: t.1, t.2)).map _ : Except Stop Program)
        = (statements bound i >>= fun r => topStatements (bound + 2) r.2 >>= fun t =>
          Except.ok ((r.1, t.1), t.2)).map _
      cases statements bound i with
      | error stop => rfl
      | ok r =>
        show ((topStatements (bound + 2) r.2 >>= _).map _ : Except Stop Program)
          = (topStatements (bound + 2) r.2 >>= _).map _
        cases topStatements (bound + 2) r.2 <;> rfl
    dsimp only
    rw [hscope, hscope]
    generalize (do return (← statements _, ← topStatements _) :
      Parser (List Stmt × List Stmt)) _ = parts
    cases parts with
    | error stop => exact .inl ⟨stop, rfl, rfl⟩
    | ok result => exact .inr ⟨result.1.1, result.1.2, rfl, rfl⟩

/-! ### Runs without the guard -/

/-- Given what differs only in guards, the helper does the same. -/
def Helper.IgnoresGuards (code : Helper) : Prop :=
  ∀ args args' h h', List.Forall₂ Value.Loosens args args' → h.Loosens h' →
    (code args h).2.Loosens (code args' h').2
      ∧ ((∃ v v', (code args h).1 = .ok v ∧ (code args' h').1 = .ok v' ∧ v.Loosens v')
        ∨ ∃ f, (code args h).1 = .error f ∧ (code args' h').1 = .error f)

section Runs

open Likeness

variable {F : Filter Unit} {ask ask' : Unit → Service → List Value → Run Value}

theorem everything_loosening (hserves : loosening.Serves F () ask ask') (bound : Nat) :
    loosening.Everything F () ask ask' fun _ => bound :=
  everything_fixed trivial (fun _ => trivial) hserves bound

/-- A scope without its guard does the same. -/
theorem executes_within (hserves : loosening.Serves F () ask ask') (bound calls : Nat) (e : Expr)
    (body : List Stmt) :
    loosening.Executes F () ask ask' (fun _ => bound) calls (.within e true body)
      (.within e false body) := by
  intro w _ r r' scope scope' hr hs
  cases bound with
  | zero =>
    simp only [exec]
    exact .endless fun _ => trivial
  | succ bound =>
    have hparts := everything_loosening hserves bound
    simp only [exec]
    have hobject : loosening.Sees () e.names scope scope' := ⟨hs.scopes, trivial⟩
    refine (hparts.evaluates calls e () le_rfl r r' scope scope' hr hobject).bind
      fun _ _ v v' hv => ?_
    have hlink : Link.Loosens (openedLink v true) (openedLink v' false) := by
      cases hv with
      | @object p p' hp =>
        obtain rfl : p = p' := hp
        exact .dropped (some p)
      | undefined | null | bool | number | text | array | native | closure => exact .dropped none
    have hopened : loosening.Sees () (stmtsNames body) (openedLink v true :: scope)
        (openedLink v' false :: scope') := ⟨.cons hlink hs.scopes, trivial⟩
    exact (Settles.withFrame hopened).bind fun _ _ _ _ hinner =>
      hparts.inOrder le_rfl hr hinner calls

variable {s s' : Setting}

/-- Engines without fragments and messages serve alike, if they have the same helpers and these do
not look at guards. -/
theorem serves_loosening (hcodes : s.codes = s'.codes)
    (hhelpers : ∀ code ∈ s.codes, Helper.IgnoresGuards code) (hcatalog : s.catalog = s'.catalog)
    (hnone : s.fragments = none) (hnone' : s'.fragments = none) (bound levels : Nat)
    (data data' : Value) :
    loosening.Serves F () (fun _ => s.perform (s.includeFragment bound data levels))
      (fun _ => s'.perform (s'.includeFragment bound data' levels)) := by
  have hmissing {t : Setting} (ht : t.fragments = none) (data : Value) (name : String) :
      t.includeFragment bound data levels name = Run.fail (.noFragment name) := by
    cases levels <;> · rw [Setting.includeFragment, ht]; rfl
  refine Serves.perform hcatalog (fun w _ name => ?_) (fun w _ name => ?_)
    fun w _ slot args args' hargs => ?_
  · simp only [hmissing hnone, hmissing hnone']
    exact .fail _
  · simp only [hmissing hnone, hmissing hnone']
    exact .fail (.noFragment name)
  · simp only [Setting.perform, ← hcodes]
    cases hcode : s.codes[slot]? with
    | none => exact .value .undefined
    | some code =>
      refine .attempt fun _ _ h h' hh => ⟨(), le_rfl, ?_⟩
      exact hhelpers code (Array.mem_of_getElem? hcode) args args' h h' hargs hh

end Runs

/-! ### Compiling on both engines -/

/-- Numbering the functions of a program leaves the mark of its scope alone. -/
theorem numbered_within (params : List String) (e : Expr) (body rest : List Stmt) :
    ∃ e' body' rest', ∀ guarded,
      Program.numbered ⟨params, .within e guarded body :: rest⟩
        = ⟨params, .within e' guarded body' :: rest'⟩ := by
  let object := e.numbered.run 0
  let inner := (numberedStmts body).run object.2
  refine ⟨object.1, inner.1, ((numberedStmts rest).run inner.2).1, fun guarded => ?_⟩
  rw [Program.numbered, numberedStmts, Stmt.numbered]
  rfl

namespace Engine

/-- Where no routine of a template is kept, compiling it is reading its source. -/
theorem compile_unkept {e : Engine} (hversion : e.store.version = e.setting.hooks.version)
    {template : String} (hnone : e.store.cache.get? template = none) :
    (e.compile template).2.store.heap = e.store.heap
      ∧ (e.compile template).1
        = match parseProgram e.setting.params (e.setting.source template) with
          | .error (.fault f) => .error (.compile f)
          | .error .exhausted => .error .endless
          | .ok program =>
            .ok ⟨e.setting.numbering (e.setting.source template) e.store.compiled,
              program.numbered⟩ := by
  have hfresh : e.setting.freshen e.store = e.store := if_pos hversion
  have hcompile := Kept.compile_eq e.setting template e.store
  rw [hfresh, hnone] at hcompile
  rw [compile, EStateM.run, hcompile]
  rcases parseProgram e.setting.params (e.setting.source template) with (_ | _) | program
  · exact ⟨rfl, rfl⟩
  · exact ⟨rfl, rfl⟩
  · exact ⟨rfl, rfl⟩

end Engine

section Engines

variable (store : Store) (codes : Array Helper) (m m' : Nat)

/-- A guarded engine and one that is not fail to compile the same templates, in the same way; and
else their routines differ in the mark of the scope.  It does not matter what was made in the heap
before. -/
theorem compile_guard {α : Type} (data : Heap → α × Heap) (template : String) :
    (∃ err,
      ((((Engine.onStore store codes m).use .guard).make data).2.compile template).1 = .error err
        ∧ (((Engine.onStore store codes m').make data).2.compile template).1 = .error err)
    ∨ ∃ number params e body rest,
      ((((Engine.onStore store codes m).use .guard).make data).2.compile template).1
          = .ok ⟨number, params, .within e true body :: rest⟩
        ∧ (((Engine.onStore store codes m').make data).2.compile template).1
          = .ok ⟨number, params, .within e false body :: rest⟩ := by
  -- The sources are read for the same parameters, in different scopes.
  have hguarded : ((((Engine.onStore store codes m).use .guard).make data).2.compile template).1
      = _ := (Engine.compile_unkept rfl rfl).2
  have hparams : (((Engine.onStore store codes m).use .guard).make data).2.setting.params
      = [dataName, escapeName] := rfl
  have hsource : (((Engine.onStore store codes m).use .guard).make data).2.setting.source template
      = inGuardedScope (generate (tokenize template)) := rfl
  rw [hparams, hsource] at hguarded
  have hplain : (((Engine.onStore store codes m').make data).2.compile template).1 = _ :=
    (Engine.compile_unkept rfl rfl).2
  have hparams : ((Engine.onStore store codes m').make data).2.setting.params
      = [dataName, escapeName] := rfl
  have hsource : ((Engine.onStore store codes m').make data).2.setting.source template
      = inDataScope (generate (tokenize template)) := rfl
  rw [hparams, hsource] at hplain
  rw [hguarded, hplain]
  rcases parse_scopes [dataName, escapeName] (generate (tokenize template)) with
    ⟨stop, h, h'⟩ | ⟨body, rest, h, h'⟩
  · rw [h, h']
    cases stop with
    | fault f => exact .inl ⟨_, rfl, rfl⟩
    | exhausted => exact .inl ⟨_, rfl, rfl⟩
  · obtain ⟨e, body', rest', hnumbered⟩ :=
      numbered_within [dataName, escapeName] (.name dataName) body rest
    rw [h, h']
    refine .inr ⟨store.compiled, [dataName, escapeName], e, body', rest', ?_, ?_⟩
    · dsimp only
      rw [hnumbered]
      rfl
    · dsimp only
      rw [hnumbered]
      rfl

/-- A guard does not change which templates cannot be compiled, nor why. -/
theorem compile_guard_error_iff (source : String) (err : Error) :
    (((Engine.onStore store codes m).use .guard).compile source).1 = .error err
      ↔ ((Engine.onStore store codes m').compile source).1 = .error err := by
  rcases compile_guard store codes m m' (fun h => ((), h)) source with
    ⟨err', h, h'⟩ | ⟨number, params, e, body, rest, h, h'⟩
  · have h : (((Engine.onStore store codes m).use .guard).compile source).1 = .error err' := h
    have h' : ((Engine.onStore store codes m').compile source).1 = .error err' := h'
    rw [h, h']
  · have h : (((Engine.onStore store codes m).use .guard).compile source).1 = .ok _ := h
    have h' : ((Engine.onStore store codes m').compile source).1 = .ok _ := h'
    rw [h, h']
    exact ⟨nofun, nofun⟩

/-- Routines that differ in the mark of the scope render the same. -/
theorem settles_renderTop {F : Filter Unit} {s t : Setting} (hcodes : s.codes = t.codes)
    (hhelpers : ∀ code ∈ s.codes, Helper.IgnoresGuards code) (hcatalog : s.catalog = t.catalog)
    (hnone : s.fragments = none) (hnone' : t.fragments = none)
    (hproviders : s.hooks.providers = []) (hproviders' : t.hooks.providers = [])
    (hescape : s.escape = t.escape) (bound number : Nat) (params : List String) (e : Expr)
    (body rest : List Stmt) (data : Value) :
    loosening.Settles F () loosening.Same
      (fun _ => s.renderTop bound ⟨number, params, .within e true body :: rest⟩ data)
      (fun _ => t.renderTop bound ⟨number, params, .within e false body :: rest⟩ data) := by
  have hserves := serves_loosening (F := F) hcodes hhelpers hcatalog hnone hnone' bound nestingLimit
    data data
  refine Likeness.Settles.invoke (le_refl ()) ?_ (Value.Loosens.refl data) ?_ rfl ?_ rfl
  · rw [hescape]
    exact Value.Loosens.refl t.escape
  · rw [Setting.provideAll, Setting.provideAll, hproviders, hproviders']
    exact .row .nil
  · exact .cons (executes_within hserves bound callLimit e body)
      (List.forall₂_same.mpr fun part _ =>
        (everything_loosening hserves bound).executes callLimit part)

/-- Runs that come to the same, on two engines. -/
theorem performRun_loosening {F : Filter Unit} [F.NeBot] {run run' : Run String}
    (h : loosening.Settles F () loosening.Same (fun _ => run) (fun _ => run')) {e e' : Engine}
    (hheap : e.store.heap.Loosens e'.store.heap) :
    (∃ name, (e.performRun run).1 = .error (.failed (.undefinedVariable name)))
      ∨ (e.performRun run).1 = (e'.performRun run').1
        ∧ (e.performRun run).2.store.heap.Loosens (e'.performRun run').2.store.heap := by
  rw [Engine.performRun, Engine.performRun, EStateM.run, EStateM.run]
  rcases h () le_rfl e.store e'.store hheap with ⟨f, t, ⟨name, rfl⟩, ht⟩ | ⟨r, r', hr, ho⟩
  · obtain ⟨_, ht⟩ := ht.exists
    have ht : run e.store = .error (.failed (.undefinedVariable name)) t := ht
    rw [ht]
    exact .inl ⟨name, rfl⟩
  · obtain ⟨_, hr⟩ := hr.exists
    obtain ⟨hr, hr'⟩ : run e.store = r ∧ run' e'.store = r' := hr
    rw [hr, hr']
    cases ho with
    | ok _ hs h => exact .inr ⟨congrArg Except.ok h, hs⟩
    | failed f _ hs => exact .inr ⟨rfl, hs⟩
    | endless _ hs _ => exact .inr ⟨rfl, hs⟩

/-- A render with a guard ends in the refusal of a name, or as it does without the guard. -/
theorem renderMade_guard (hhelpers : ∀ code ∈ codes, Helper.IgnoresGuards code) (bound : Nat)
    (template : Option String) (data : Heap → Value × Heap) :
    let guarded := (Engine.onStore store codes m).use .guard
    let plain := Engine.onStore store codes m'
    (∃ name, (guarded.renderMade bound template data).1
          = .error (.render (.undefinedVariable name)))
      ∨ (guarded.renderMade bound template data).1 = (plain.renderMade bound template data).1
        ∧ (guarded.renderMade bound template data).2.store.heap.Loosens
          (plain.renderMade bound template data).2.store.heap := by
  intro guarded plain
  have hmade : (guarded.make data).2.store.heap = (plain.make data).2.store.heap := rfl
  have hvalue : (guarded.make data).1 = (plain.make data).1 := rfl
  have hrefl := Heap.Loosens.refl (plain.make data).2.store.heap
  cases template with
  | none => exact .inr ⟨rfl, hrefl⟩
  | some template =>
    rw [Engine.renderMade_eq_renderBy, Engine.renderMade_eq_renderBy]
    rw [Engine.renderBy_some, Engine.renderBy_some]
    split
    · exact .inr ⟨rfl, hrefl⟩
    have hheap : ((guarded.make data).2.compile template).2.store.heap
        = (guarded.make data).2.store.heap := (Engine.compile_unkept rfl rfl).1
    have hheap' : ((plain.make data).2.compile template).2.store.heap
        = (plain.make data).2.store.heap := (Engine.compile_unkept rfl rfl).1
    have hcompile := compile_guard store codes m m' data template
    change (∃ err, ((guarded.make data).2.compile template).1 = .error err
      ∧ ((plain.make data).2.compile template).1 = .error err) ∨ ∃ number params e body rest,
        ((guarded.make data).2.compile template).1 = .ok ⟨number, params, _⟩
          ∧ ((plain.make data).2.compile template).1 = .ok ⟨number, params, _⟩ at hcompile
    rw [hvalue]
    rw [hmade] at hheap
    generalize (guarded.make data).2.compile template = compiled at *
    generalize (plain.make data).2.compile template = compiled' at *
    obtain ⟨r, e⟩ := compiled
    obtain ⟨r', e'⟩ := compiled'
    have hloosens : e.store.heap.Loosens e'.store.heap := by
      dsimp only at hheap hheap'
      rw [hheap, hheap']
      exact hrefl
    rcases hcompile with ⟨err, h, h'⟩ | ⟨number, params, object, body, rest, h, h'⟩
    · obtain rfl : r = _ := h
      obtain rfl : r' = _ := h'
      exact .inr ⟨rfl, hloosens⟩
    · obtain rfl : r = _ := h
      obtain rfl : r' = _ := h'
      have hrun := settles_renderTop (F := pure ()) (s := guarded.setting) (t := plain.setting) rfl
        hhelpers rfl rfl rfl rfl rfl rfl bound number params object body rest (plain.make data).1
      rcases performRun_loosening hrun hloosens with ⟨name, hname⟩ | ⟨heq, hheaps⟩
      · exact .inl ⟨name, congrArg (Except.mapError Engine.haltError) hname⟩
      · exact .inr ⟨congrArg (Except.mapError Engine.haltError) heq, hheaps⟩

/-- **A guard does nothing but refuse names.**  An engine that guards its data scope and one into
which nothing was hooked fail to compile the same templates, in the same way.  A render of the
guarded one ends in the refusal of a name; or it gives the text or the error that a render of the
other one gives, and it leaves the heap, with the data in it, as the other one does, but for the
guards in the scopes that functions keep. -/
theorem guard_restricts (hhelpers : ∀ code ∈ codes, Helper.IgnoresGuards code) (bound : Nat)
    (template : Option String) (data : Heap → Value × Heap) :
    let guarded := (Engine.onStore store codes m).use .guard
    let plain := Engine.onStore store codes m'
    (∀ source err,
      (guarded.compile source).1 = .error err ↔ (plain.compile source).1 = .error err)
      ∧ ((∃ name, (guarded.renderMade bound template data).1
            = .error (.render (.undefinedVariable name)))
        ∨ (guarded.renderMade bound template data).1 = (plain.renderMade bound template data).1
          ∧ (guarded.renderMade bound template data).2.store.heap.Loosens
            (plain.renderMade bound template data).2.store.heap) := by
  intro guarded plain
  exact ⟨compile_guard_error_iff store codes m m',
    renderMade_guard store codes m m' hhelpers bound template data⟩

/-- On an engine whose helper gives back its first argument, a greeting is refused with the guard,
or is the same without it. -/
theorem guard_restricts_greeting :
    let helper : Helper := fun args h => (.ok (argument args 0), h)
    let data : Heap → Value × Heap := fun h => h.ofJson (.object [("name", .text "Ada")])
    let guarded := (Engine.onStore {} #[helper] 8).use .guard
    let plain := Engine.onStore {} #[helper] 8
    (∀ code ∈ #[helper], Helper.IgnoresGuards code)
      ∧ ((∃ name, (guarded.renderMade 100 (some "Hello, [[= name ]]") data).1
            = .error (.render (.undefinedVariable name)))
        ∨ (guarded.renderMade 100 (some "Hello, [[= name ]]") data).1
          = (plain.renderMade 100 (some "Hello, [[= name ]]") data).1) := by
  intro helper data guarded plain
  have hhelpers : ∀ code ∈ #[helper], Helper.IgnoresGuards code := by
    intro code hcode
    obtain rfl : code = helper := by simpa using hcode
    intro args args' h h' hargs hh
    exact ⟨hh, .inl ⟨_, _, rfl, rfl, Kinship.Rows.argument hargs 0⟩⟩
  exact ⟨hhelpers, (guard_restricts {} #[helper] 8 8 hhelpers 100 (some "Hello, [[= name ]]")
    data).2.imp_right And.left⟩

end Engines

end Stencil
