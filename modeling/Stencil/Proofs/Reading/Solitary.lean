import Stencil.Proofs.Assignment
import Stencil.Proofs.LayoutFaults
import Stencil.Proofs.Reading.Composition

/-!
# Templates of one shorthand marker

A template that is nothing but a shorthand marker becomes one output marker, its routine one
statement that writes, and its text what that statement writes to the empty output.  The value that
is written may do anything while it is evaluated, as long as the output can still be written to.

* `MarkerBody` — what stands in a shorthand marker without the blanks around it;
* `MarkerBody.replaceMarks_print`, `tokenize_call` — the template is one output marker, which is one
  piece;
* `soleBody`, `parse_placed` — the program of a routine with one piece;
* `Delivers`, `concludes_soleBody` — running the routine;
* `markerScope`, `concludes_sole` — where the marker stands, and the routine as a whole;
* `Engine.Steady.render_known` — rendering the template.
-/

namespace Stencil.Reading

open Routine Routine.Parser Template Text

/-! ### The marker -/

/-- What stands in a shorthand marker, without the blanks around it. -/
structure MarkerBody where
  /-- Its characters. -/
  chars : List Char
  nonempty : chars ≠ []
  /-- It does not begin with a blank. -/
  front : ∀ c ∈ chars.head?, isBlank c = false
  /-- It does not end with a blank. -/
  back : ∀ c ∈ chars.getLast?, isBlank c = false
  /-- No marker closes in it. -/
  noClose : contains closing chars = false

namespace MarkerBody

variable (b : MarkerBody)

/-- It as a text. -/
def text : String := String.ofList b.chars

/-- The template that is the marker with this sigil. -/
def print (sigil : Char) : String :=
  String.ofList (opening ++ (sigil :: ' ' :: (b.chars ++ [' ']) ++ closing))

theorem isEmpty_print (sigil : Char) : (b.print sigil).isEmpty = false := by
  rw [← Bool.not_eq_true, String.isEmpty_iff]
  intro hempty
  have hchars := congrArg String.toList hempty
  rw [print, String.toList_ofList] at hchars
  cases hchars

theorem apart : Apart ']' b.chars := (apart_iff _ _).mpr b.noClose

/-- The template becomes what the shorthand is written as. -/
theorem replaceMarks_print (sigil : Char) (replace : List Char → List Char) :
    replaceMarks (shorthand? sigil) replace (b.print sigil).toList = replace b.chars := by
  have hmark := shorthand?_spaced sigil b.nonempty b.front b.back b.apart []
  rw [List.append_nil] at hmark
  rw [print, String.toList_ofList,
    replaceMarks_of_some (fun _ _ _ => length_lt_of_shorthand?) hmark]
  exact List.append_nil _

end MarkerBody

/-- A template that is an output marker has one piece. -/
theorem tokenize_output {sign : Char} {cs : List Char} (hapart : Apart ']' (' ' :: cs)) :
    tokenize (String.ofList (opening ++ (sign :: ' ' :: (cs ++ [' ']) ++ closing)))
      = [classify (sign :: ' ' :: (cs ++ [' ']))] := by
  have hcut := cut_closing hapart []
  rw [List.append_nil] at hcut
  have hchars : (String.ofList (opening ++ (sign :: ' ' :: (cs ++ [' ']) ++ closing))).toList
      = opening ++ sign :: ((' ' :: cs) ++ ' ' :: closing) := by
    simp
  obtain ⟨bound, htokens⟩ := tokenize_marker hchars hcut
  rw [htokens, tokenizeWithin_clean clean_nil]
  rfl

/-- A call as text. -/
def callText (function : String) (args : List Char) : List Char :=
  function.toList ++ '(' :: (args ++ [')'])

section Call

variable {function : String} {args : List Char}

theorem trim_callText (hfront : ∀ c ∈ function.toList.head?, isBlank c = false) :
    trim (' ' :: (callText function args ++ [' '])) = callText function args := by
  refine trim_spaced (fun c hc => ?_) fun c hc => ?_
  · cases hchars : function.toList with
    | nil =>
      rw [callText, hchars] at hc
      cases hc
      decide
    | cons d ds =>
      rw [callText, hchars] at hc
      cases hc
      exact hfront c (by rw [hchars]; rfl)
  · rw [callText, ← List.cons_append, ← List.append_assoc, List.getLast?_concat] at hc
    cases hc
    decide

/-- A template that is a call in an output marker has one piece. -/
theorem tokenize_call {sign : Char} {piece : String → Piece}
    (hsign : ∀ cs, classify (sign :: cs) = piece (String.ofList (trim cs)))
    (hfront : ∀ c ∈ function.toList.head?, isBlank c = false) (hfunction : ']' ∉ function.toList)
    (hargs : Apart ']' args) :
    tokenize (String.ofList (opening ++ (sign :: ' ' :: (callText function args ++ [' '])
        ++ closing)))
      = [piece (String.ofList (callText function args))] := by
  have hapart : Apart ']' (' ' :: callText function args) := by
    have hopen : ']' ∉ ' ' :: (function.toList ++ ['(']) := by
      simp [hfunction]
    have h := apart_between hopen hargs (by decide : ']' ∉ [')'])
    simpa [callText] using h
  rw [tokenize_output hapart, hsign, trim_callText hfront]

end Call

/-! ### The program -/

/-- The body of a routine that writes one value. -/
def soleBody (e : Expr) : List Stmt :=
  [.within (.name dataName) false
    [.declare .variable [(outputName, some (.text ""))], writeStmt e,
      .giveBack (some (.name outputName))]]

/-- The routine of one piece is parsed into the statement of the piece. -/
theorem parse_placed (params : List String) {piece : Piece} {e : Expr} {tokens : List Token}
    {line : Nat} (h : Placed piece [writeStmt e] 3 tokens line)
    (hpiece : ∀ source, piece ≠ .code source) :
    parseProgram params (inDataScope (generate [piece])) = .ok ⟨params, soleBody e⟩ := by
  have hline : Lexes 3 ((String.join ([piece].map Template.line)).toList ++ lastLines.toList)
      tokens line lastLines.toList := by
    rw [List.map_singleton, String.join_cons, String.join_nil, String.append_empty]
    exact h.lexes _
  obtain ⟨last, hlex⟩ := lex_generate hline
  have hgives := h.gives (Nat.le_refl 16) (.inr hpiece)
    ((gives_statements_closing line).mono (by omega))
  rw [parseProgram]
  rw [hlex]
  exact parseTokens_inScope params (by omega) hgives last

/-! ### Running the routine -/

/-- The run comes to a value that is shown as the text, and leaves the output in the frame to be
written to, or it halts in this way. -/
def Delivers (o : Nat) (run : Run Value) (store : Store) : Except Halt String → Prop
  | .ok text => ∃ v after, run store = .ok v after ∧ after.heap.display v = some text
    ∧ ∃ u, after.heap.slot? (.inFrame o outputName) = some ⟨u, true⟩
  | .error halt => ∃ after, run store = .error halt after

section Running

variable {around : Surroundings} {store : Store} {e : Expr} {r : Except Halt String}

/-- What is delivered is written to the empty output and given back. -/
theorem concludes_write {scope : Scope} {o : Nat} {bound : Nat}
    (hs : Outputs store.heap (.locals o :: scope) o "")
    (h : Delivers o (eval (bound + 2) around (.locals o :: scope) e) store r) :
    Concludes (inOrder (exec (bound + 4) around (.locals o :: scope))
      [writeStmt e, .giveBack (some (.name outputName))]) store
      (r.map fun text => .giveBack (.text text)) := by
  cases r with
  | error halt =>
    obtain ⟨after, hfail⟩ := h
    exact ⟨after, run_bind_error (exec_write_error hs (Nat.le_add_left 1 (bound + 1)) hfail)⟩
  | ok text =>
    obtain ⟨v, after, hok, hshown, u, hslot⟩ := h
    have hinnermost : after.heap.Innermost outputName (.locals o :: scope)
        (.inFrame o outputName) := .here rfl (by rw [hslot, Option.isSome_some])
    have hassign := assignName_changeable (v := .text text) hinnermost hslot rfl
    have hchanges := Heap.changesOnly_putSlot (v := .text text) hslot
    generalize hheap : after.heap.putSlot (.text text) (.inFrame o outputName) = heap
      at hassign hchanges
    have hstate : Run.heap after = .ok after.heap after := rfl
    have hsum : Run.finite (after.heap.sum (.text "") v) after = .ok (.text text) after := by
      rw [sum_text hshown, String.empty_append]
      rfl
    have hwrite : exec (bound + 4) around (.locals o :: scope) (writeStmt e) store
        = .ok .onward { after with heap := heap } :=
      (exec_write_eq hs e (Nat.le_add_left 1 (bound + 1))).trans
        (run_bind_ok ((run_bind_ok hok).trans ((run_bind_ok hstate).trans
          ((run_bind_ok hsum).trans ((run_bind_ok hassign).trans rfl)))))
    have hgive : exec (bound + 4) around (.locals o :: scope) (.giveBack (some (.name outputName)))
        { after with heap := heap } = .ok (.giveBack (.text text)) { after with heap := heap } := by
      have hread : eval (bound + 3) around (.locals o :: scope) (.name outputName)
          { after with heap := heap } = .ok (.text text) { after with heap := heap } := by
        rw [eval]
        exact valueOf_found
          (Heap.find?_of_innermost (hchanges.innermost hinnermost) hchanges.value)
      rw [exec]
      exact (run_bind_ok hread).trans rfl
    exact ⟨_, (run_bind_ok hwrite).trans ((run_bind_ok hgive).trans rfl)⟩

/-- The body of the routine gives back what its value delivers. -/
theorem concludes_soleBody {place inner bound : Nat} {data : Value}
    (hdata : (store.heap.frame place).get? dataName = some ⟨data, true⟩)
    (houtputs : Outputs (started store.heap) (startScope store.heap data inner place)
      store.heap.frames.size "")
    (hempty : store.heap.frame inner = .empty)
    (h : Delivers store.heap.frames.size
      (eval (bound + 2) around (startScope store.heap data inner place) e)
      { store with heap := started store.heap } r) :
    Concludes ((inOrder (exec (bound + 5) around [.locals inner, .locals place]) (soleBody e) >>=
      fun flow => pure flow.result) >>= Run.textOf) store r := by
  have hwithin := exec_within around store hdata hempty (bound + 2)
    [writeStmt e, .giveBack (some (.name outputName))]
  have hwrite := concludes_write houtputs h
  cases r with
  | error halt =>
    obtain ⟨after, hfail⟩ := hwrite
    exact ⟨after, run_bind_error (run_bind_error (run_bind_error (hwithin.trans hfail)))⟩
  | ok text =>
    obtain ⟨after, hok⟩ := hwrite
    have hbody : inOrder (exec (bound + 5) around [.locals inner, .locals place]) (soleBody e) store
        = .ok (.giveBack (.text text)) after := by
      rw [soleBody, inOrder]
      exact (run_bind_ok (hwithin.trans hok)).trans rfl
    have hresult : (inOrder (exec (bound + 5) around [.locals inner, .locals place]) (soleBody e)
        >>= fun flow => pure flow.result) store = .ok (.text text) after :=
      (run_bind_ok hbody).trans rfl
    exact ⟨after, (run_bind_ok hresult).trans (textOf_text text after)⟩

end Running

/-! ### Where the marker stands -/

section Marker

variable (h : Heap) (params : List String) (data : Value) (others : List Value)

/-- The heap behind the start of a routine that was given the data and the other values. -/
def markerHeap : Heap := started (boundTo h params (data :: others)).newFrame.2

/-- The number of the frame with the output. -/
def markerFrame : Nat := (boundTo h params (data :: others)).newFrame.2.frames.size

/-- The scope of the first marker of a routine: the output, the data, the frame of the body and the
parameters. -/
def markerScope : Scope :=
  startScope (boundTo h params (data :: others)).newFrame.2 data
    (boundTo h params (data :: others)).frames.size h.frames.size

variable {h params data others}

theorem lt_newFrame (g : Heap) : g.frames.size < g.newFrame.2.frames.size := by
  rw [Heap.size_newFrame]
  omega

/-- The frame of the parameters is there. -/
theorem lt_markerHeap :
    h.frames.size < (boundTo h params (data :: others)).newFrame.2.frames.size :=
  (grows_boundTo h params _).2.trans (lt_newFrame _)

theorem frame_body :
    (boundTo h params (data :: others)).newFrame.2.frame
      (boundTo h params (data :: others)).frames.size = .empty := by
  rw [Heap.frame_newFrame, if_pos rfl]

/-- The parameters are bound to what the routine was given. -/
theorem get?_params (hparams : params.Nodup) {name : String} {v : Value}
    (hmem : (name, v) ∈ params.zip (data :: others)) :
    ((boundTo h params (data :: others)).newFrame.2.frame h.frames.size).get? name
      = some ⟨v, true⟩ := by
  rw [Heap.frame_newFrame, if_neg (Nat.ne_of_lt (grows_boundTo h params _).2)]
  exact get?_boundTo hparams hmem

/-- At the marker, the output is empty. -/
theorem outputs_marker :
    Outputs (markerHeap h params data others) (markerScope h params data others)
      (markerFrame h params data others) "" :=
  outputs_started lt_markerHeap (lt_newFrame _)

/-- At the marker, a parameter that the data do not hide can be named. -/
theorem find?_marker (hparams : params.Nodup) {name : String} {v : Value}
    (hmem : (name, v) ∈ params.zip (data :: others)) (hname : name ≠ outputName)
    (hkey : h.linkValue? name (openedLink data false) = none) :
    (markerHeap h params data others).find? name (markerScope h params data others)
      = some v := by
  have hobjects : (boundTo h params (data :: others)).newFrame.2.objects = h.objects :=
    ((grows_boundTo h params _).1.trans (grows_newFrame _)).objects
  have hopened : (boundTo h params (data :: others)).newFrame.2.linkValue? name
      (openedLink data false) = none := by
    rw [← hkey]
    cases data with
    | object place =>
      show (Heap.members _ place).get? name = (Heap.members _ place).get? name
      rw [Heap.members, hobjects, Heap.members]
    | undefined | null | bool | number | text | array | native | closure => rfl
  rw [markerHeap, markerScope, find?_startScope lt_markerHeap (lt_newFrame _) frame_body hname,
    hopened, get?_params hparams hmem]
  rfl

/-- A routine that writes one value comes to what the value delivers at the marker. -/
theorem concludes_sole {s : Setting} {vs : List Value}
    (hproviders : s.hooks.providers = vs.map Provider.constant) {routine : Compiled} {e : Expr}
    (hroutine : routine.program = ⟨dataName :: params, soleBody e⟩)
    (hparams : (dataName :: params).Nodup) (hlength : params.length = 1 + vs.length)
    {fragment : String → Run String} {store : Store} {bound : Nat} {r : Except Halt String}
    (hdelivers : Delivers (markerFrame store.heap (dataName :: params) data (s.escape :: vs))
      (eval (bound + 2) ⟨s.perform fragment, routine.number, callLimit⟩
        (markerScope store.heap (dataName :: params) data (s.escape :: vs)) e)
      { store with heap := markerHeap store.heap (dataName :: params) data (s.escape :: vs) } r) :
    Concludes (s.invoke (bound + 5) fragment routine data) store r := by
  have hlength' : (dataName :: params).length = 2 + vs.length := by
    rw [List.length_cons, hlength]
    omega
  refine .congr (invoke_constants hproviders hroutine hlength' fragment data store
    (bound + 5)) ?_
  exact concludes_soleBody (get?_params hparams (.head _)) outputs_marker frame_body hdelivers

end Marker

end Stencil.Reading

namespace Stencil

open Routine Reading Template

/-! ### Rendering -/

/-- The routine has the program if it is one of the template. -/
def Knows (template : String) (program : Program) (other : String) (routine : Compiled) : Prop :=
  other = template → routine.program = program

/-- A routine that is compiled with known hooks has the program that the template is parsed into. -/
theorem knows_of_new {s : Setting} {template : String} {program : Program}
    (hparse : parseProgram s.params (s.source template) = .ok program) (other : String)
    (routine : Compiled) (h : New s other routine) :
    Knows template program.numbered other routine := by
  rintro rfl
  obtain ⟨program', count, hparse', rfl⟩ := h
  cases hparse.symm.trans hparse'
  rfl

namespace Engine.Steady

variable {hooks : Hooks} {template : String} {program : Program} {e : Engine}
  (h : e.Steady hooks (Knows template program.numbered))
  (hparse : parseProgram e.setting.params (e.setting.source template) = .ok program)
include h hparse

/-- A template whose program is known is compiled to a routine of it, which leaves the heap. -/
theorem compile_known :
    ∃ routine after, e.setting.compile template e.store = .ok routine after
      ∧ routine.program = program.numbered ∧ after.heap = e.store.heap := by
  rcases h.kept.compile (knows_of_new hparse template) with
    ⟨routine, after, hcompile, hknown, -, hheap⟩ | ⟨stop, after, -, hstop, -⟩
  · exact ⟨routine, after, hcompile, hknown rfl, hheap⟩
  · cases hparse.symm.trans hstop

/-- Rendering a template whose program is known comes to what its routine concludes. -/
theorem render_known (hempty : template.isEmpty = false) {bound : Nat} {data : Json}
    {r : Except Halt String}
    (hrun : ∀ routine after,
      (e.make fun h => h.ofJson data).2.compile template = (.ok routine, ⟨e.setting, after⟩) →
      routine.program = program.numbered → after.heap = (e.store.heap.ofJson data).2 →
      Concludes (e.setting.renderTop bound routine (e.store.heap.ofJson data).1) after r) :
    (e.render bound (some template) data).1 = r.mapError Engine.haltError := by
  obtain ⟨routine, after, hcompile, hroutine, hheap⟩ :=
    (h.make fun heap => heap.ofJson data).compile_known hparse
  have hmade : (e.make fun h => h.ofJson data).2.compile template
      = (.ok routine, ⟨e.setting, after⟩) := Engine.compile_ok hcompile
  rw [Engine.render_eq_renderMade, Engine.renderMade_eq_renderBy, Engine.renderBy_some, hempty,
    if_neg Bool.false_ne_true, hmade]
  exact congrArg (Except.mapError Engine.haltError)
    (Concludes.performRun (e := ⟨e.setting, after⟩) (hrun routine after hmade hroutine hheap))

end Engine.Steady

end Stencil
