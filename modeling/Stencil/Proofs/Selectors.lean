import Stencil.Proofs.Constants
import Stencil.Proofs.Messages

/-!
# Selectors

An inclusion by a value names its fragment by a selector.  The selector is written behind the name of
the function that includes, as the text that it is; so it is the argument of that function if the
parentheses at its ends enclose it as a whole.  Otherwise the function is given what the first
parentheses enclose, and the rest of the selector goes on from its result.

* `Selector`, `Selector.isExpression_text` — a selector that is enclosed as a whole, and what it is;
* `Selector.parse_inclusions` — the program of the routine that includes by it;
* `Setting.evalAtMarker` — the evaluation of an expression where the marker stands;
* `delivers_chosen` — what the routine writes;
* `render_chosen` — the main theorem;
* `render_dividedSelector` — a selector that is divided.
-/

namespace Stencil.Reading

open Routine Routine.Parser Template Text

/-! ### Sources in parentheses -/

/-- A source that is one expression is the same expression in parentheses. -/
theorem IsExpression.inParens {source : String} {e : Expr} (h : IsExpression source e)
    (hcomment : endsInComment source = false) : IsExpression ("(" ++ source ++ ")") e := by
  obtain ⟨tokens, last, hlexes, hbalanced, hexpr⟩ := h.enclosed hcomment 0
  have hlex : lex ("(" ++ source ++ ")") = .ok ⟨onLine 1 (.sign .openParen)
      :: (tokens ++ [onLine last (.sign .closeParen)]), last⟩ := by
    have hwhole := (lexes_sign 1 _ .openParen (by decide)).append
      ((hlexes []).append (lexes_sign last [] .closeParen (by decide)))
    rw [lex]
    refine lexChars_of_lexes ?_
    simpa [onLine, Punctuator.spelling] using hwhole
  refine ⟨_, hlex, ?_⟩
  have harrow : closesBefore .arrow (onLine 1 (.sign .openParen)
      :: (tokens ++ [onLine last (.sign .closeParen)])) = false :=
    closesBefore_enclosed hbalanced rfl rfl .arrow []
  have hselections : Gives (selections · e) 1 [] e [] :=
    Gives.succ fun bound _ last => by
      rw [selections]
      rfl
  have hcontinue : Gives (continueWith · 0 e) 1 [] e [] :=
    Gives.succ fun bound _ last => by
      rw [continueWith]
      rfl
  have hoperand := gives_operand rfl rfl (gives_primary_inParens 1 harrow (hexpr []).2)
    (hselections.mono (by omega))
  refine gives_expression hoperand (hcontinue.mono (by omega)) _ ?_ last
  simp only [callBound, List.length_cons, List.length_append, List.length_nil]
  omega

/-! ### Selectors -/

/-- What stands in an inclusion by a value: one expression, between parentheses. -/
structure Selector where
  /-- The source between the parentheses. -/
  inner : String
  /-- The expression that it is. -/
  expr : Expr
  isExpression : IsExpression inner expr
  /-- It does not end in a comment. -/
  noComment : endsInComment inner = false
  /-- No marker closes in it. -/
  noClose : contains closing inner.toList = false

namespace Selector

variable (sel : Selector)

/-- The selector as a source. -/
def text : String := "(" ++ sel.inner ++ ")"

/-- The parentheses change nothing. -/
theorem isExpression_text : IsExpression sel.text sel.expr :=
  sel.isExpression.inParens sel.noComment

/-- The expression with its functions told apart. -/
def numbered : Expr := (sel.expr.numbered.run 0).1

theorem toList_text : sel.text.toList = '(' :: (sel.inner.toList ++ [')']) := by
  rw [text, String.toList_append, String.toList_append]
  rfl

theorem apart_inner : Apart ']' sel.inner.toList := (apart_iff _ _).mpr sel.noClose

/-- The selector in its marker. -/
def body : MarkerBody where
  chars := sel.text.toList
  nonempty := by
    rw [toList_text]
    exact List.cons_ne_nil _ _
  front := by
    rw [toList_text]
    rintro c ⟨⟩
    decide
  back := by
    rw [toList_text, ← List.cons_append, List.getLast?_concat]
    rintro c ⟨⟩
    decide
  noClose := by
    rw [toList_text]
    refine (apart_iff _ _).mp ?_
    have h := apart_between (by decide : ']' ∉ ['(']) sel.apart_inner (by decide : ']' ∉ [')'])
    simpa using h

/-- The template that includes the fragment. -/
def print : String := sel.body.print '>'

/-- The call that the inclusion is written as. -/
def call : List Char := callText chosenFragmentFunction sel.inner.toList

theorem writeInclusions_print :
    writeInclusions sel.print
      = String.ofList (opening ++ ('-' :: ' ' :: (sel.call ++ [' ']) ++ closing)) := by
  have hends : (startsWith ['('] sel.body.chars && endsWith [')'] sel.body.chars) = true := by
    show (startsWith ['('] sel.text.toList && endsWith [')'] sel.text.toList) = true
    rw [toList_text, endsWith, ← List.cons_append, List.reverse_append]
    rfl
  rw [writeInclusions, print, sel.body.replaceMarks_print, inclusion_eq, inclusionCall, if_pos hends]
  simp [call, callText, body, toList_text]

/-- The template has one piece. -/
theorem tokenize_inclusions :
    tokenize (writeInclusions sel.print) = [.raw (String.ofList sel.call)] := by
  rw [sel.writeInclusions_print]
  exact tokenize_call (fun _ => rfl) (by rintro c ⟨⟩; decide) (by decide) sel.apart_inner

/-- The piece is read off as the statement that writes what the function gives for the selector. -/
theorem placed_call (k : Nat) :
    ∃ tokens k', Placed (.raw (String.ofList sel.call))
      [writeStmt (.call (.name chosenFragmentFunction) [sel.expr] false)] (1 + k) tokens
      (k' + 1) := by
  obtain ⟨tokens, last, hlexes, hbalanced, hexpr⟩ := sel.isExpression.enclosed sel.noComment k
  -- The piece stands in parentheses, and the selector in those behind the function.
  refine ⟨_, last, placed_write (8 * tokens.length + 22)
    (onLine (1 + k) (.sign .openParen) :: onLine (1 + k) (.name chosenFragmentFunction)
      :: onLine (1 + k) (.sign .openParen)
      :: (tokens ++ [onLine last (.sign .closeParen), onLine last (.sign .closeParen)]))
    (fun rest => ?_) (by omega) ?_ fun rest => ?_⟩
  · have h := (lexes_writing (1 + k) _).append
      ((lexes_sign (1 + k) _ .openParen (by decide)).append
        ((lexes_word (1 + k) _ '_' ['_', 'p', 'a', 'r', 't', 'i', 'a', 'l', '_', 'd', 'y', 'n', 'a',
            'm', 'i', 'c'] '(' (by decide)).append
          ((lexes_sign (1 + k) _ .openParen (by decide)).append
            ((hlexes _).append
              ((lexes_sign last _ .closeParen (by decide)).append
                ((lexes_sign last _ .closeParen (by decide)).append
                  (lexes_semicolon last rest)))))))
    simpa [Template.line, call, callText, outputName, chosenFragmentFunction, onLine,
      Punctuator.spelling] using h
  · simp only [List.length_cons, List.length_append, List.length_nil]
    omega
  · obtain ⟨hstart, hgives⟩ := hexpr (onLine last (.sign .closeParen)
      :: onLine last (.sign .semicolon) :: rest)
    simp only [← expression_itemPower] at hgives
    have hcall : Gives (expression · 0) _ _
        (.call (.name chosenFragmentFunction) [sel.expr] false) _ :=
      gives_expression_callName (1 + k) 0 rfl rfl hstart (by omega) hgives
        (endsOperand_closeParen last (onLine last (.sign .semicolon) :: rest))
    have hname : Balanced (onLine (1 + k) (.name chosenFragmentFunction)
        :: onLine (1 + k) (.sign .openParen) :: (tokens ++ [onLine last (.sign .closeParen)])) :=
      .cons (by rintro _ ⟨⟩) (hbalanced.enclose rfl rfl)
    have harrow : closesBefore .arrow (onLine (1 + k) (.sign .openParen)
        :: (onLine (1 + k) (.name chosenFragmentFunction) :: onLine (1 + k) (.sign .openParen)
          :: (tokens ++ [onLine last (.sign .closeParen)]) ++ onLine last (.sign .closeParen)
          :: onLine last (.sign .semicolon) :: rest)) = false :=
      closesBefore_enclosed hname rfl rfl .arrow _
    simp only [List.cons_append, List.append_assoc, List.nil_append] at harrow
    have hvalue := gives_expression_inParens (1 + k) itemPower harrow hcall
      (endsOperand_semicolon last rest)
    simpa only [List.cons_append, List.append_assoc, List.nil_append] using hvalue

/-- The program of the routine. -/
def program : Program :=
  ⟨pageParams, soleBody (.call (.name chosenFragmentFunction) [sel.expr] false)⟩

/-- **The routine of an inclusion by a value** gives the whole selector to the function that
includes. -/
theorem parse_inclusions :
    parseProgram pageParams (inDataScope (generate (tokenize (writeInclusions sel.print))))
      = .ok sel.program := by
  obtain ⟨tokens, k', hplaced⟩ := sel.placed_call 2
  rw [sel.tokenize_inclusions]
  exact parse_placed pageParams hplaced nofun

theorem numbered_program :
    sel.program.numbered
      = ⟨pageParams, soleBody (.call (.name chosenFragmentFunction) [sel.numbered] false)⟩ :=
  rfl

end Selector

end Stencil.Reading

namespace Stencil

open Routine Reading Template

/-! ### What the routine writes -/

/-- An expression is evaluated where the marker of a routine stands that has no other pieces: the
parameters are bound, the data are opened, and the output begins. -/
def Setting.evalAtMarker (s : Setting) (bound : Nat) (fragment : String → Run String)
    (routine : Nat) (data : Value) (x : Expr) : Run Value := do
  let args := data :: s.escape :: (← s.provideAll)
  let outer ← withFrame []
  bindParams outer s.params args
  let inner ← withFrame (openedLink data false :: (← withFrame outer))
  declareName inner outputName (.text "") true
  Routine.eval bound ⟨s.perform fragment, routine, callLimit⟩ inner x

/-- What an inclusion shows whose fragment comes to this: the text, or nothing if it failed in a way
that may be hidden. -/
def shown : EStateM.Result Halt Store String → Except Halt String
  | .ok text _ => .ok text
  | .error (.failed f) _ => if f.isProtocol then .error (.failed f) else .ok ""
  | .error .endless _ => .error .endless

/-- What an inclusion by a value shows whose selector comes to this. -/
def chosenText (fragment : String → Run String) :
    EStateM.Result Halt Store Value → Except Halt String
  | .ok (.text name) store => shown (fragment name store)
  | .ok _ _ => .ok ""
  | .error halt _ => .error halt

namespace Routine.Pin

/-- The output is in the frame, and can be given another value. -/
def outputAt (o : Nat) : Pin where
  place := o
  name := outputName
  holds found := ∃ u, found = some ⟨u, true⟩
  assigned _ v _ _ := ⟨v, rfl⟩

/-- At the marker, it is. -/
theorem keeps_marker {h : Heap} {params : List String} {data : Value} {others : List Value} :
    (outputAt (markerFrame h params data others)).Keeps (markerHeap h params data others) :=
  ⟨outputs_marker.output_inside, .text "", outputs_marker.output⟩

/-- Settings without code of their own leave all variables. -/
theorem sparedBy_of_constants {p : Pin} {s : Setting} {vs : List Value} (hcodes : s.codes = #[])
    (hproviders : s.hooks.providers = vs.map Provider.constant) : p.SparedBy s where
  codes := by
    rw [hcodes]
    exact nofun
  providers := by
    rw [hproviders]
    intro make hmake
    obtain ⟨_, -, ⟨⟩⟩ := List.mem_map.mp hmake

end Routine.Pin

section Writing

variable {s : Setting} {fragment : String → Run String}

/-- A failure that may be hidden is, and others are not. -/
theorem concludes_hidingFailure (m : Run String) (store : Store) :
    Concludes (Setting.hidingFailure m) store (shown (m store)) := by
  cases hm : m store with
  | ok text after => exact ⟨after, run_tryCatch_ok hm⟩
  | error halt after =>
    have hcaught : Setting.hidingFailure m store = _ := run_tryCatch_error hm
    cases halt with
    | endless => exact ⟨after, hcaught⟩
    | failed f =>
      rw [shown]
      dsimp only at hcaught
      split
      · rename_i hprotocol
        rw [if_pos hprotocol] at hcaught
        exact ⟨after, hcaught⟩
      · rename_i hordinary
        rw [if_neg hordinary] at hcaught
        exact ⟨after, hcaught⟩

/-- The function that includes shows what the selector comes to, and the output can still be written
to. -/
theorem delivers_chosen {routine o : Nat} (hspared : (Pin.outputAt o).SparedBy s)
    (hfragment : ∀ name, (Pin.outputAt o).Survives (fragment name)) {scope : Scope} {store : Store}
    (hkeeps : (Pin.outputAt o).Keeps store.heap) (byValue : Nat)
    (hfind : store.heap.find? chosenFragmentFunction scope
      = some (.native chosenFragmentFunction (.service .chosenFragment) byValue))
    (bound : Nat) (x : Expr) :
    Delivers o (Routine.eval (bound + 2) ⟨s.perform fragment, routine, callLimit⟩ scope
        (.call (.name chosenFragmentFunction) [x] false)) store
      (chosenText fragment
        (Routine.eval (bound + 1) ⟨s.perform fragment, routine, callLimit⟩ scope x store)) := by
  have hcalls : callLimit ≠ 0 := by decide
  have heval : Routine.eval (bound + 2) ⟨s.perform fragment, routine, callLimit⟩ scope
      (.call (.name chosenFragmentFunction) [x] false) store = _ :=
    eval_serviceCall_eq hfind hcalls x bound
  have hselected := (Pin.everything (hspared.perform hfragment) (bound + 1)).eval routine callLimit
    scope x store hkeeps
  cases hx : Routine.eval (bound + 1) ⟨s.perform fragment, routine, callLimit⟩ scope x store with
  | error halt after => exact ⟨after, heval.trans (run_bind_error hx)⟩
  | ok v after =>
    rw [Run.leaves_ok hx] at hselected
    have hcall := heval.trans (run_bind_ok hx)
    -- A value that is no text shows nothing.
    have hnothing (hv : s.perform fragment .chosenFragment [v] after = .ok (.text "") after) :
        Delivers o (Routine.eval (bound + 2) ⟨s.perform fragment, routine, callLimit⟩ scope
          (.call (.name chosenFragmentFunction) [x] false)) store (.ok "") :=
      ⟨.text "", after, hcall.trans hv, display_text _ _, hselected.holds⟩
    cases v with
    | undefined | null | bool | number | array | object | native | closure => exact hnothing rfl
    | text name =>
      have hincluded := (hfragment name).hidingFailure after hselected
      have hshown := concludes_hidingFailure (fragment name) after
      show Delivers o _ store (shown (fragment name after))
      generalize shown (fragment name after) = r at hshown
      cases r with
      | ok text =>
        obtain ⟨last, hrun⟩ := hshown
        rw [Run.leaves_ok hrun] at hincluded
        exact ⟨.text text, last, hcall.trans ((run_bind_ok hrun).trans rfl), display_text _ _,
          hincluded.holds⟩
      | error halt =>
        obtain ⟨last, hrun⟩ := hshown
        exact ⟨last, hcall.trans (run_bind_error hrun)⟩

/-- Where the marker stands, the expression is evaluated behind the start of the output. -/
theorem evalAtMarker_eq {vs : List Value}
    (hproviders : s.hooks.providers = vs.map Provider.constant) (bound routine : Nat)
    (data : Value) (x : Expr) (store : Store) :
    s.evalAtMarker bound fragment routine data x store
      = Routine.eval bound ⟨s.perform fragment, routine, callLimit⟩
          (markerScope store.heap s.params data (s.escape :: vs)) x
          { store with heap := markerHeap store.heap s.params data (s.escape :: vs) } := by
  have hvalues : s.provideAll store = .ok vs store := by
    rw [Setting.provideAll, s.mapM_provide_eq, givenAll_of_constants hproviders]
  rw [Setting.evalAtMarker, run_bind_ok hvalues]
  have hbind := bindParams_eq [.locals store.heap.frames.size] s.params
    (data :: s.escape :: vs) { store with heap := store.heap.newFrame.2 }
  exact (run_bind_ok (withFrame_eq [] store)).trans ((run_bind_ok hbind).trans rfl)

variable {byName byValue : Nat} (hhooks : s.hooks = inclusionHooks byName byValue)
  (hcodes : s.codes = #[])
include hhooks hcodes

/-- The routine of an inclusion by a value comes to what its selector chooses. -/
theorem concludes_chosen (sel : Selector) {routine : Compiled}
    (hroutine : routine.program = sel.program.numbered) {store : Store} {data : Value}
    (hkey : store.heap.linkValue? chosenFragmentFunction (openedLink data false) = none)
    (bound : Nat) :
    Concludes (s.renderTop (bound + 5) routine data) store
      (chosenText (s.includeFragment (bound + 5) data nestingLimit)
        (s.evalAtMarker (bound + 1) (s.includeFragment (bound + 5) data nestingLimit)
          routine.number data sel.numbered store)) := by
  have hproviders := providers_of_inclusions hhooks
  have hparams : s.params = pageParams := by
    rw [Setting.params, hhooks]
    rfl
  have hnodup : pageParams.Nodup := by decide
  rw [sel.numbered_program] at hroutine
  rw [evalAtMarker_eq hproviders, hparams]
  have hspared {o : Nat} : (Pin.outputAt o).SparedBy s :=
    Pin.sparedBy_of_constants hcodes hproviders
  refine concludes_sole hproviders hroutine hnodup rfl ?_
  refine delivers_chosen hspared (hspared.includeFragment (bound + 5) data nestingLimit)
    Pin.keeps_marker byValue ?_ bound sel.numbered
  exact find?_marker hnodup (.tail _ (.tail _ (.tail _ (.head _)))) (by decide) hkey

end Writing

/-! ### Rendering -/

/-- What the selector of an inclusion comes to when the template is rendered. -/
def Engine.selected (e : Engine) (bound : Nat) (sel : Selector) (data : Json) :
    EStateM.Result Halt Store Value :=
  let (v, e) := e.make fun h => h.ofJson data
  match e.compile sel.print with
  | (.ok routine, e) =>
    e.setting.evalAtMarker bound (e.setting.includeFragment (bound + 4) v nestingLimit)
      routine.number v sel.numbered e.store
  | (.error _, e) => .error .endless e.store

/-- On an engine that includes fragments, an inclusion by a value is rendered as what its selector
chooses. -/
theorem render_chosenText {e : Engine} {byName byValue : Nat} (sel : Selector)
    (h : e.Steady (inclusionHooks byName byValue) (Knows sel.print sel.program.numbered))
    (hcodes : e.setting.codes = #[]) {data : Json}
    (hdata : ∀ members, data = .object members →
      ∀ member ∈ members, member.1 ≠ chosenFragmentFunction) (bound : Nat) :
    (e.render (bound + 5) (some sel.print) data).1
      = (chosenText (e.setting.includeFragment (bound + 5) (e.store.heap.ofJson data).1
          nestingLimit) (e.selected (bound + 1) sel data)).mapError Engine.haltError := by
  have hparse : parseProgram e.setting.params (e.setting.source sel.print) = .ok sel.program := by
    rw [parseProgram_of_inclusions h.hooks, sel.parse_inclusions]
  refine h.render_known hparse (sel.body.isEmpty_print '>')
    fun routine after hcompile hroutine hheap => ?_
  have hselected : e.selected (bound + 1) sel data
      = e.setting.evalAtMarker (bound + 1) (e.setting.includeFragment (bound + 5)
          (e.store.heap.ofJson data).1 nestingLimit) routine.number (e.store.heap.ofJson data).1
          sel.numbered after := by
    rw [Engine.selected]
    dsimp only
    rw [hcompile]
    rfl
  have hkey : after.heap.linkValue? chosenFragmentFunction
      (openedLink (e.store.heap.ofJson data).1 false) = none := by
    rw [hheap]
    refine linkValue?_ofJson e.store.heap fun members hmembers => ?_
    exact get?_ofList_eq_none (hdata members hmembers)
  rw [hselected]
  exact concludes_chosen h.hooks hcodes sel hroutine hkey bound

/-- **An inclusion includes the fragment that its whole selector names**, if the parentheses at the
ends of the selector enclose it as a whole.  On every engine on which fragments were installed and
nothing else, whatever it was used for since, such a selector is one expression, the template is
compiled, and rendering it with data that do not hide the function that includes comes to this.  If
the expression comes to the name of a fragment where the marker stands, it is the text that the
source of the fragment is rendered as from there, with the same data and nine more inclusions to
nest; ordinary failures of the fragment are hidden, and protocol failures are not.  It fails if no
fragment has the name, and if the expression fails; and it is empty if the expression comes to
anything but a text. -/
theorem render_chosen (cap : Nat) {ops : List Operation} (hops : ∀ op ∈ ops, op.isPlain = true)
    (sel : Selector) {data : Json}
    (hdata : ∀ members, data = .object members →
      ∀ member ∈ members, member.1 ≠ chosenFragmentFunction) (bound : Nat) :
    let e := ((Engine.create cap).use .fragments).after ops
    let answer := (e.render (bound + 5) (some sel.print) data).1
    let value := (e.store.heap.ofJson data).1
    IsExpression sel.text sel.expr
      ∧ (∃ routine, (e.compile sel.print).1 = .ok routine)
      ∧ (∀ name source after, e.selected (bound + 1) sel data = .ok (.text name) after →
          lastSource name ops = some source →
          answer = (shown (e.setting.renderNested (bound + 5)
            (e.setting.includeFragment (bound + 5) value 9) source value after)).mapError
              Engine.haltError)
      ∧ (∀ name after, e.selected (bound + 1) sel data = .ok (.text name) after →
          lastSource name ops = none → answer = .error (.render (.noFragment name)))
      ∧ (∀ v after, e.selected (bound + 1) sel data = .ok v after → (∀ name, v ≠ .text name) →
          answer = .ok "")
      ∧ ∀ halt after, e.selected (bound + 1) sel data = .error halt after →
          answer = .error (Engine.haltError halt) := by
  intro e answer value
  obtain ⟨byName, byValue, hnew⟩ :=
    steady_fragments {} #[] cap (Knows sel.print sel.program.numbered)
  have hparse {s : Setting} (hhooks : s.hooks = inclusionHooks byName byValue) :
      parseProgram s.params (s.source sel.print) = .ok sel.program := by
    rw [parseProgram_of_inclusions hhooks, sel.parse_inclusions]
  have h : e.Steady (inclusionHooks byName byValue) (Knows sel.print sel.program.numbered) :=
    hnew.after (fun s hhooks => knows_of_new (hparse hhooks)) hops
  have hplain : ((Engine.create cap).use .fragments).IncludesOnly .empty := ⟨rfl, rfl, rfl⟩
  obtain ⟨registry, hincludes, hget⟩ : ∃ registry, e.IncludesOnly registry ∧ _ := hplain.after hops
  have hregistry (name : String) :
      (e.setting.fragments.getD .empty).get? name = lastSource name ops := by
    rw [hincludes.fragments]
    exact hget name
  have hanswer : answer = (chosenText (e.setting.includeFragment (bound + 5) value nestingLimit)
      (e.selected (bound + 1) sel data)).mapError Engine.haltError :=
    render_chosenText sel h hincludes.codes hdata bound
  refine ⟨sel.isExpression_text, ?_, fun name source after hselected hsource => ?_,
    fun name after hselected hnone => ?_, fun v after hselected hv => ?_,
    fun halt after hselected => ?_⟩
  · obtain ⟨routine, after, hcompile, -⟩ := h.compile_known (hparse h.hooks)
    exact ⟨routine, congrArg Prod.fst (Engine.compile_ok hcompile)⟩
  · rw [hanswer, hselected]
    have hinclude : e.setting.includeFragment (bound + 5) value nestingLimit name = _ :=
      Setting.includeFragment_succ ((hregistry name).trans hsource) (bound + 5) value 9
    rw [chosenText, hinclude]
  · rw [hanswer, hselected]
    rw [chosenText, Setting.includeFragment_none ((hregistry name).trans hnone)]
    rfl
  · rw [hanswer, hselected]
    cases v with
    | text name => exact absurd rfl (hv name)
    | undefined | null | bool | number | array | object | native | closure => rfl
  · rw [hanswer, hselected]
    rfl

/-- A selector that shows its own text, where every fragment is its name, came to that text. -/
theorem selected_of_chosenText {r : EStateM.Result Halt Store Value} {name : String}
    (hname : name ≠ "") (h : chosenText (fun name => pure name) r = .ok name) :
    ∃ after, r = .ok (.text name) after := by
  cases r with
  | error halt after => cases h
  | ok v after =>
    cases v with
    | text other =>
      cases h
      exact ⟨after, rfl⟩
    | undefined | null | bool | number | array | object | native | closure =>
      cases h
      exact absurd rfl hname

/-- A selector that is a sum. -/
def sumSelector : Selector where
  inner := "a + \"q\""
  expr := .binary .add (.name "a") (.text "q")
  isExpression := ⟨⟨[⟨.name "a", 1⟩, ⟨.sign .plus, 1⟩, ⟨.text "q", 1⟩], 1⟩, by cbv, by cbv⟩
  noComment := by cbv
  noClose := by decide

/-- The summands name other fragments, or none. -/
def sumOps : List Operation :=
  [.registerFragment "p" "P", .registerFragment "pq" "<[[= a ]]>"]

theorem render_chosen_sum :
    let e := ((Engine.create 2).use .fragments).after sumOps
    let data : Json := .object [("a", .text "p")]
    let value := (e.store.heap.ofJson data).1
    sumSelector.print = "[[> (a + \"q\") ]]"
      ∧ ∃ after, e.selected 95 sumSelector data = .ok (.text "pq") after
        ∧ (e.render 99 (some sumSelector.print) data).1
          = (shown (e.setting.renderNested 99 (e.setting.includeFragment 99 value 9) "<[[= a ]]>"
              value after)).mapError Engine.haltError
        ∧ (e.render 99 (some sumSelector.print) data).1 = .ok "<p>" := by
  intro e data value
  have hops : ∀ op ∈ sumOps, op.isPlain = true := by decide
  have hdata : ∀ members, Json.object [("a", .text "p")] = .object members →
      ∀ member ∈ members, member.1 ≠ chosenFragmentFunction := by
    rintro members ⟨⟩
    decide
  have hchosen : chosenText (fun name => pure name) (e.selected 95 sumSelector data) = .ok "pq" := by
    decide +kernel
  obtain ⟨after, hselected⟩ := selected_of_chosenText (by decide) hchosen
  obtain ⟨-, -, hrender, -⟩ := render_chosen 2 hops sumSelector hdata 94
  exact ⟨by decide +kernel, after, hselected, hrender "pq" "<[[= a ]]>" after hselected (by decide),
    by decide +kernel⟩

/-- **A selector that is divided.**  It is one expression, which comes to the name of a fragment; but
its parentheses do not belong together, so the fragment that the first ones name is included, and
what follows them is added to its text. -/
theorem render_dividedSelector :
    let e := ((Engine.create 2).use .fragments).after
      [.registerFragment "p" "P", .registerFragment "pq" "both"]
    IsExpression "(\"p\") + (\"q\")" (.binary .add (.text "p") (.text "q"))
      ∧ (e.render 99 (some "[[= (\"p\") + (\"q\") ]]") (.object [])).1 = .ok "pq"
      ∧ (e.render 99 (some "[[> pq ]]") (.object [])).1 = .ok "both"
      ∧ (e.render 99 (some "[[> (\"p\") + (\"q\") ]]") (.object [])).1 = .ok "Pq" := by
  have hexpression : IsExpression "(\"p\") + (\"q\")" (.binary .add (.text "p") (.text "q")) :=
    ⟨⟨[⟨.sign .openParen, 1⟩, ⟨.text "p", 1⟩, ⟨.sign .closeParen, 1⟩, ⟨.sign .plus, 1⟩,
      ⟨.sign .openParen, 1⟩, ⟨.text "q", 1⟩, ⟨.sign .closeParen, 1⟩], 1⟩, by cbv, by cbv⟩
  exact ⟨hexpression, by decide +kernel, by decide +kernel, by decide +kernel⟩

end Stencil
