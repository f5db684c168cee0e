import Stencil.Proofs.Output.Result
import Stencil.Proofs.Reading.Render

/-!
# Rendering gives what was written

A render that succeeds gives the text of what its routine wrote, piece by piece and in order, if
nothing in the template makes the routine end before its last statement, open or close the scope of
the data, or do more to the output than to add to it.  A piece counts as written unless it was added
while another piece was still being computed.

* `Engine.renderRecorded` — a render that keeps the record of its routine;
* `renderRecorded_forget` — without the record it is the render;
* `CompilesTo` — the statements that a template becomes;
* `Engine.Bare.renderRecorded_eq_join` — what is rendered with a record is the text of the record;
* `render_eq_join` — the main theorem.
-/

namespace Stencil

open Routine Routine.Parser Reading Template

/-! ### Rendering with a record -/

/-- Runs a compiled routine with the data and gives its text, with the record of what it wrote. -/
def Setting.invokeRecorded (s : Setting) (bound : Nat) (fragment : String → Run String)
    (routine : Compiled) (data : Value) : Run (String × List String) := do
  let args := data :: s.escape :: (← s.provideAll)
  if args.length ≠ routine.arity then Run.fail (.arity routine.arity args.length)
  else
    let around : Surroundings := ⟨s.perform fragment, routine.number, callLimit⟩
    let (v, record) ← Recording.program routine.program bound around args []
    return (← Run.textOf v, record)

/-- Without the record it is an invocation. -/
theorem Setting.fst_invokeRecorded (s : Setting) (bound : Nat) (fragment : String → Run String)
    (routine : Compiled) (data : Value) :
    Prod.fst <$> s.invokeRecorded bound fragment routine data
      = s.invoke bound fragment routine data := by
  rw [invokeRecorded, invoke, map_bind]
  congr 1
  funext values
  dsimp only
  split
  · rfl
  · rw [map_bind, ← forgets_program _ _ _ _ [], bind_map_left]
    congr 1
    funext result
    rw [map_bind]
    simp only [map_pure, bind_pure]

namespace Engine

/-- The text of a template with a value as its data, with the record of what its routine wrote. -/
def renderValueRecorded (e : Engine) (bound : Nat) (template : Option String) (data : Value) :
    Except Error (String × List String) × Engine :=
  match template with
  | none => (.error .missingTemplate, e)
  | some template =>
    if template.isEmpty then (.error .missingTemplate, e)
    else
      match e.compile template with
      | (.error err, e) => (.error err, e)
      | (.ok routine, e) =>
        match e.performRun (e.setting.invokeRecorded bound
          (e.setting.includeFragment bound data nestingLimit) routine data) with
        | (.ok result, e) => (.ok result, e)
        | (.error halt, e) => (.error (haltError halt), e)

/-- The text of a template with a JSON value as its data, with the record of what its routine
wrote. -/
def renderRecorded (e : Engine) (bound : Nat) (template : Option String) (data : Json) :
    Except Error (String × List String) × Engine :=
  let (v, e) := e.make fun h => h.ofJson data
  e.renderValueRecorded bound template v

theorem performRun_map {α β : Type} (e : Engine) (f : α → β) (run : Run α) :
    e.performRun (f <$> run) = ((e.performRun run).1.map f, (e.performRun run).2) := by
  rw [performRun, performRun, EStateM.run, EStateM.run]
  have hmap : (f <$> run) e.store = EStateM.map f run e.store := rfl
  rw [hmap, EStateM.map]
  cases run e.store <;> rfl

theorem renderValueRecorded_forget (e : Engine) (bound : Nat) (template : Option String)
    (data : Value) :
    ((e.renderValueRecorded bound template data).1.map Prod.fst,
      (e.renderValueRecorded bound template data).2) = e.renderValue bound template data := by
  cases template with
  | none => rfl
  | some template =>
    rw [renderValueRecorded, renderValue]
    split
    · rfl
    · obtain ⟨_ | routine, ready⟩ := e.compile template
      · rfl
      · dsimp only
        rw [Setting.renderTop, ← Setting.fst_invokeRecorded, performRun_map]
        obtain ⟨_ | result, after⟩ := ready.performRun _ <;> rfl

/-- **Recording changes nothing about a render.** -/
theorem renderRecorded_forget (e : Engine) (bound : Nat) (template : Option String) (data : Json) :
    ((e.renderRecorded bound template data).1.map Prod.fst,
      (e.renderRecorded bound template data).2) = e.render bound template data :=
  renderValueRecorded_forget _ bound template _

/-- A render that succeeds has a record. -/
theorem exists_renderRecorded {e : Engine} {bound : Nat} {template : Option String} {data : Json}
    {text : String} (h : (e.render bound template data).1 = .ok text) :
    ∃ written, (e.renderRecorded bound template data).1 = .ok (text, written) := by
  rw [← e.renderRecorded_forget] at h
  cases hrecorded : (e.renderRecorded bound template data).1 with
  | error err =>
    rw [hrecorded] at h
    cases h
  | ok result =>
    rw [hrecorded] at h
    cases h
    exact ⟨result.2, rfl⟩

end Engine

/-! ### The statements of a template -/

/-- The routine of the template has the statements between the declaration of the output and where
it is given back, and none outside the scope of the data. -/
def CompilesTo (template : String) (stmts : List Stmt) : Prop :=
  ∃ program, parseProgram [dataName, escapeName] (inDataScope (generate (tokenize template)))
      = .ok program
    ∧ OpensData program.body (stmts ++ [giveOutput]) []

/-- The statements of a routine that opens the data, without the last one if that gives back the
output, and if there is nothing behind the scope. -/
def Routine.Program.statements? (p : Program) : Option (List Stmt) :=
  match p.body with
  | [.within _ _ (_ :: stmts)] =>
    match stmts.getLast? with
    | some (.giveBack (some (.name s))) => if s = outputName then some stmts.dropLast else none
    | _ => none
  | _ => none

/-- Whether the routine of the template stays in the scope of the data and runs through to where it
gives back the output, and does no more to the output than to add to it. -/
def runsThrough (template : String) : Bool :=
  match parseProgram [dataName, escapeName] (inDataScope (generate (tokenize template))) with
  | .error _ => false
  | .ok program =>
    match program.statements? with
    | none => false
    | some stmts =>
      stmtsGoOn false stmts && stmtsEvery Expr.leavesOutput Stmt.leavesOutput stmts

theorem exists_of_runsThrough {template : String} (h : runsThrough template = true) :
    ∃ stmts, CompilesTo template stmts ∧ stmtsGoOn false stmts = true
      ∧ stmtsEvery Expr.leavesOutput Stmt.leavesOutput stmts = true := by
  rw [runsThrough] at h
  cases hparse : parseProgram [dataName, escapeName]
      (inDataScope (generate (tokenize template))) with
  | error stop =>
    rw [hparse] at h
    cases h
  | ok program =>
    rw [hparse] at h
    dsimp only at h
    cases hstmts : program.statements? with
    | none =>
      rw [hstmts] at h
      cases h
    | some stmts =>
      rw [hstmts] at h
      obtain ⟨hgoes, hleaves⟩ := Bool.and_eq_true_iff.mp h
      refine ⟨stmts, ⟨program, hparse, ?_⟩, hgoes, hleaves⟩
      obtain ⟨-, read, rest, hopens⟩ := parse_dataScope hparse
      rw [OpensData] at hopens ⊢
      rw [Program.statements?, hopens] at hstmts
      cases rest with
      | cons stmt rest => cases hstmts
      | nil =>
        dsimp only at hstmts
        split at hstmts
        · rename_i name hlast
          split at hstmts
          · rename_i hname
            cases hstmts
            rw [hopens, giveOutput, ← hname, List.dropLast_append_getLast? _ hlast]
          · cases hstmts
        · cases hstmts

/-- Writing a text is read off in front of anything else. -/
theorem statements_write {bound : Nat} (hbound : 6 ≤ bound) (line : Nat) (text : String)
    (tokens : List Token) (last : Nat) :
    statements (bound + 1)
        ⟨(writing ++ [Lexeme.text text, .sign .semicolon]).map (onLine line) ++ tokens, last⟩
      = (statements bound >>= fun stmts => return writeStmt (.text text) :: stmts)
        ⟨tokens, last⟩ := by
  have htext := gives_expression_text line text itemPower (endsOperand_semicolon line tokens)
  have hwrite := gives_statement_write line (by decide) htext
  rw [statements]
  refine (bind_ok rfl).trans ?_
  exact bind_ok (hwrite bound (by omega) last)

/-- The numbered routine has the numbered statements. -/
theorem OpensData.numbered_append {p : Program} {stmts : List Stmt}
    (h : OpensData p.body (stmts ++ [giveOutput]) []) :
    OpensData p.numbered.body ((numberedStmts stmts 0).1 ++ [giveOutput]) [] := by
  have happend := numberedStmts_append stmts [giveOutput] 0
  obtain ⟨params, body⟩ := p
  obtain rfl : body = _ := h
  rw [OpensData]
  exact congrArg (fun ss => [Stmt.within (.name dataName) false
    (.declare .variable [(outputName, some (.text ""))] :: ss)]) happend

/-- **A template that begins with text becomes statements that begin by writing it.** -/
theorem CompilesTo.begins {template : String} {stmts : List Stmt} (h : CompilesTo template stmts)
    {first : String} {pieces : List Piece} (hpieces : tokenize template = .text first :: pieces) :
    ∃ later, stmts = writeStmt (.text first) :: later := by
  obtain ⟨program, hparse, hopens⟩ := h
  rw [hpieces] at hparse
  have hfront := (Reading.Line.text first.toList).lexes 3
    ((String.join (pieces.map line)).toList ++ lastLines.toList)
  rw [Line.piece, String.ofList_toList, ← List.append_assoc, ← String.toList_append,
    ← String.join_cons] at hfront
  change Lexes 3 ((String.join ((Piece.text first :: pieces).map line)).toList
    ++ lastLines.toList) _ _ _ at hfront
  obtain ⟨bound, l, read, i, behind, hbound, hread, hopens'⟩ :=
    exists_of_parse_dataScope hfront hparse
  obtain ⟨bound, rfl⟩ : ∃ b, bound = b + 1 := ⟨bound - 1, by omega⟩
  have hwrite := statements_write (show 6 ≤ bound by omega) 3 first l.tokens l.endLine
  rw [Line.lexemes, String.ofList_toList] at hread
  obtain ⟨later, i', -, hlater⟩ := exists_of_bind_ok (hwrite.symm.trans hread)
  cases hlater
  rw [OpensData] at hopens hopens'
  rw [hopens] at hopens'
  cases stmts with
  | nil => cases hopens'
  | cons stmt stmts =>
    cases hopens'
    exact ⟨stmts, rfl⟩

/-! ### What a render wrote -/

/-- What an engine without features does for its routines changes no variable. -/
theorem serves_perform (start : Heap) (s : Setting) (fragment : String → Run String) :
    (silent start).Serves (s.perform fragment) := by
  intro service args identity name hservice hargs
  cases hservice service rfl
  exact .look (.textOf _) fun _ => .pure trivial

/-- JSON data lie in what is new, and make no frame. -/
theorem silent_ofJson (h : Heap) (json : Json) :
    (writtenRealm h).Keeps (h.ofJson json).2 ∧ (writtenRealm h).Has (h.ofJson json).1
      ∧ IsSilent h [] (h.ofJson json).2 := by
  obtain ⟨hleads, hhas⟩ := (keeps_writtenRealm h).ofJson json
  refine ⟨hleads.keeps, hhas, rfl, fun other hother => ?_⟩
  rw [hleads.aside.frame_eq, Heap.frame, Array.getD_eq_getD_getElem?,
    Array.getElem?_eq_none hother]
  rfl

/-- What the routine of a template gives is the text of what it wrote. -/
theorem Setting.invokeRecorded_eq_join {s : Setting} (hhooks : s.hooks = {})
    (hescape : ∃ identity, s.escape = .native escapeName (.service .escape) identity)
    {template : String} {routine : Compiled} (hfrom : FromTemplate template routine)
    {stmts : List Stmt} (hcompiles : CompilesTo template stmts)
    (hleaves : stmtsEvery Expr.leavesOutput Stmt.leavesOutput stmts = true)
    (hgoes : stmtsGoOn false stmts = true) {bound : Nat} {fragment : String → Run String}
    {data : Value} {start : Heap} {store after : Store}
    (hkeeps : (writtenRealm start).Keeps store.heap) (hdata : (writtenRealm start).Has data)
    (hsilent : IsSilent start [] store.heap) {text : String} {written : List String}
    (h : s.invokeRecorded bound fragment routine data store = .ok (text, written) after) :
    text = String.join written
      ∧ ∀ first pieces, tokenize template = .text first :: pieces → [first] <+: written := by
  obtain ⟨program, hparse, hroutine⟩ := hfrom
  obtain ⟨identity, hescape⟩ := hescape
  have hopens : OpensData routine.program.body ((numberedStmts stmts 0).1 ++ [giveOutput]) [] := by
    obtain ⟨program', hparse', hopens⟩ := hcompiles
    cases hparse.symm.trans hparse'
    rw [hroutine]
    exact hopens.numbered_append
  have hparams : ∀ name ∈ routine.program.params, name ≠ outputName := by
    rw [hroutine]
    show ∀ name ∈ program.params, name ≠ outputName
    rw [params_of_parseProgram hparse]
    decide
  have hprovide : s.provideAll store = .ok [] store := by
    rw [provideAll, hhooks]
    rfl
  rw [invokeRecorded, run_bind_ok hprovide] at h
  dsimp only at h
  split at h
  · cases h
  · obtain ⟨⟨v, record⟩, between, hprogram, htext⟩ := exists_of_run_bind_ok h
    have hargs : (writtenRealm start).HasAll [data, s.escape] := by
      rw [hescape]
      have hallowed : (writtenRealm start).Has (.native escapeName (.service .escape) identity) :=
        fun _ heq => (Native.service.inj heq).symm
      exact .cons hdata (.cons hallowed .nil)
    have hleaves' : ∀ stmt ∈ (numberedStmts stmts 0).1,
        stmt.every Expr.leavesOutput Stmt.leavesOutput = true := by
      rw [← stmtsEvery_iff, stmtsEvery_numbered unnumbered_leavesOutput]
      exact hleaves
    obtain ⟨rfl, hbegins⟩ := program_written (serves_perform start s fragment) hparams hopens
      hleaves' ((stmtsGoOn_numbered stmts false 0).trans hgoes) hkeeps hsilent hargs hprogram
    obtain ⟨_, _, hshown, hpair⟩ := exists_of_run_bind_ok htext
    obtain ⟨hdisplay, -⟩ := finite_eq_ok hshown
    cases hpair
    cases (display_text between.heap _).symm.trans hdisplay
    refine ⟨rfl, fun first pieces hpieces => ?_⟩
    obtain ⟨later, rfl⟩ := hcompiles.begins hpieces
    exact hbegins first _ rfl

/-- What a recorded render gives is the text of what its routine wrote. -/
theorem Engine.Bare.renderRecorded_eq_join {e : Engine} (hbare : e.Bare) {template : String}
    {stmts : List Stmt} (hcompiles : CompilesTo template stmts)
    (hleaves : stmtsEvery Expr.leavesOutput Stmt.leavesOutput stmts = true)
    (hgoes : stmtsGoOn false stmts = true) {bound : Nat} {data : Json} {text : String}
    {written : List String}
    (h : (e.renderRecorded bound (some template) data).1 = .ok (text, written)) :
    text = String.join written
      ∧ ∀ first pieces, tokenize template = .text first :: pieces → [first] <+: written := by
  obtain ⟨hkeeps, hdata, hsilent⟩ := silent_ofJson e.store.heap data
  have hready := hbare.make fun heap => heap.ofJson data
  change ((e.make fun h => h.ofJson data).2.renderValueRecorded bound (some template)
    (e.store.heap.ofJson data).1).1 = _ at h
  rw [Engine.renderValueRecorded] at h
  split at h
  · cases h
  rcases hready.kept.compile fun _ => fromTemplate_of_new hready.hooks template with
    ⟨routine, after, hcompile, hfrom, -, hafter⟩ | ⟨stop, after, hcompile, -, -⟩
  · rw [Engine.compile_ok hcompile] at h
    dsimp only at h
    rw [Engine.performRun, EStateM.run] at h
    cases hrun : (e.make fun h => h.ofJson data).2.setting.invokeRecorded bound
        ((e.make fun h => h.ofJson data).2.setting.includeFragment bound
          (e.store.heap.ofJson data).1 nestingLimit)
        routine (e.store.heap.ofJson data).1 after with
    | error halt store' =>
      rw [hrun] at h
      cases h
    | ok result store' =>
      rw [hrun] at h
      cases h
      have hheap : after.heap = (e.store.heap.ofJson data).2 := hafter
      rw [← hheap] at hkeeps hsilent
      exact Setting.invokeRecorded_eq_join hready.hooks hready.escape hfrom hcompiles hleaves
        hgoes hkeeps hdata hsilent hrun
  · rw [Engine.compile_error hcompile] at h
    cases h

/-- **A render gives what was written.**  On every engine without plugins, whatever it was used for
before, for every template whose routine runs through, and with all data: if the render succeeds,
its text is that of the pieces which the routine wrote, in order, and it begins with the text that
the template begins with, if it does. -/
theorem render_eq_join {template : String} (hruns : runsThrough template = true) (store : Store)
    (codes : Array Helper) (cap : Nat) {ops : List Operation}
    (hops : ∀ op ∈ ops, op.isPlain = true) (bound : Nat) (data : Json) {text : String}
    (h : (((Engine.onStore store codes cap).after ops).render bound (some template) data).1
      = .ok text) :
    ∃ written,
      (((Engine.onStore store codes cap).after ops).renderRecorded bound (some template) data).1
        = .ok (text, written)
      ∧ text = String.join written
      ∧ ∀ first pieces, tokenize template = .text first :: pieces →
        ∃ later, written = first :: later ∧ text = first ++ String.join later := by
  obtain ⟨stmts, hcompiles, hgoes, hleaves⟩ := exists_of_runsThrough hruns
  have hbare := bare_after (bare_onStore store codes cap) hops
  obtain ⟨written, hrecorded⟩ := Engine.exists_renderRecorded h
  obtain ⟨rfl, hbegins⟩ := hbare.renderRecorded_eq_join hcompiles hleaves hgoes hrecorded
  refine ⟨written, hrecorded, rfl, fun first pieces hpieces => ?_⟩
  obtain ⟨later, rfl⟩ := hbegins first pieces hpieces
  exact ⟨later, rfl, String.join_cons⟩

/-- A template with a loop that one of its statements leaves. -/
def listing : String :=
  "Hi [[ for (const x of xs) \x7b if (x === last) \x7b break \x7d ]][[= x ]],[[ \x7d ]]!"

/-- Data for it. -/
def listingData : Json :=
  .object [("xs", .array [.text "a", .text "<", .text "c"]), ("last", .text "c")]

theorem render_eq_join_listing :
    runsThrough listing = true
      ∧ ((Engine.create 1).render 100 (some listing) listingData).1 = .ok "Hi a,&lt;,!"
      ∧ ∃ written,
        ((Engine.create 1).renderRecorded 100 (some listing) listingData).1
          = .ok ("Hi a,&lt;,!", written)
        ∧ "Hi a,&lt;,!" = String.join written
        ∧ ∃ later, written = "Hi " :: later ∧ "Hi a,&lt;,!" = "Hi " ++ String.join later := by
  have hruns : runsThrough listing = true := by decide +kernel
  have hrender : ((Engine.create 1).render 100 (some listing) listingData).1
      = .ok "Hi a,&lt;,!" := by
    decide +kernel
  obtain ⟨written, hrecorded, hjoin, hbegins⟩ :=
    render_eq_join hruns {} #[] 1 (List.forall_mem_nil _) 100 listingData hrender
  exact ⟨hruns, hrender, written, hrecorded, hjoin, hbegins "Hi " _ rfl⟩

example : ((Engine.create 1).renderRecorded 100 (some listing) listingData).1
    = .ok ("Hi a,&lt;,!", ["Hi ", "a", ",", "&lt;", ",", "!"]) := by
  decide +kernel

/-- Text in a function that writes while its value is awaited is lost; so is text in the scope of an
object that has an output of its own.  And where a marker closes the scope of the data, the routine
gives back nothing. -/
theorem render_lostText :
    let rendered (template : String) (data : List (String × Json)) :=
      ((Engine.create 1).render 1000 (some template) (.object data)).1
    rendered "[[ const f = () => \x7b ]]in[[ \x7d ]]A[[- f() ]]B" [] = .ok "AundefinedB"
      ∧ rendered "[[ with (o) \x7b ]]in[[ \x7d ]]B" [("o", .object [(outputName, .text "q")])]
        = .ok "B"
      ∧ rendered "A[[ \x7d if (false) \x7b ]]B" [] = .ok "undefined" := by
  refine ⟨?_, ?_, ?_⟩ <;> decide +kernel

end Stencil
