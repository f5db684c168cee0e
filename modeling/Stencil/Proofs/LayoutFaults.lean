import Stencil.Proofs.Inheritance
import Stencil.Proofs.NestedRender
import Stencil.Proofs.Reading.Raising

/-!
# Faults of layouts

On an engine that resolves layouts, a template whose chain of layouts cannot be resolved is replaced
by one that raises what is wrong.  The message names a layout, and so the template that raises it is
read as it should be only if the name does not close its marker.

* `LayoutFault.name`, `apart_message` — the layout that a fault names;
* `layoutHooks`, `steady_layouts` — the hooks of an engine that resolves layouts;
* `fails_invoke_raising` — the routine that raises a message;
* `render_layoutFault` — the main theorem;
* `render_closingName` — a name that closes the marker.
-/

namespace Stencil

open Routine Reading Template Text

/-! ### Names of layouts -/

/-- The name of the layout that is missing or too deep. -/
def Template.LayoutFault.name : LayoutFault → String
  | .missing name => name
  | .depth name => name

/-- Only its name puts two closing brackets into what is said of a fault. -/
theorem apart_message (fault : LayoutFault) :
    Apart ']' fault.message.toList ↔ Apart ']' fault.name.toList := by
  obtain ⟨tail, hmessage, hnot, hhead⟩ : ∃ tail : List Char,
      fault.message.toList = "Layout \"".toList ++ (fault.name.toList ++ tail)
        ∧ ']' ∉ tail ∧ tail.head? ≠ some ']' := by
    cases fault with
    | missing name =>
      refine ⟨"\" not found".toList, ?_, by decide, by decide⟩
      rw [LayoutFault.message, String.toList_append, String.toList_append, List.append_assoc]
      rfl
    | depth name =>
      refine ⟨"\" exceeds the maximum inheritance depth of 10".toList, ?_, by decide, by decide⟩
      rw [message_depth, String.toList_append, String.toList_append, List.append_assoc]
      rfl
  rw [hmessage]
  constructor
  · exact fun h => h.within ⟨"Layout \"".toList, tail, (List.append_assoc _ _ _)⟩
  · intro h
    exact (apart_of_notMem (by decide)).append (h.append_of_head (apart_of_notMem hnot) hhead)
      (by decide)

/-! ### Engines that resolve layouts -/

/-- The hooks of an engine that resolves layouts and does nothing else. -/
def layoutHooks : Hooks := ({} : Hooks).apply (.addFirstPreprocessor .layouts)

/-- With these hooks, templates are read with their layouts resolved. -/
theorem parseProgram_of_layouts {s : Setting} (hhooks : s.hooks = layoutHooks) (template : String) :
    parseProgram s.params (s.source template)
      = parseProgram [dataName, escapeName] (inDataScope (generate (tokenize
          (withLayouts (s.layouts.getD .empty) template)))) := by
  rw [Setting.params, Setting.source, Setting.wrap, Setting.preprocess]
  rw [hhooks]
  rfl

/-- A new engine on which layouts are installed. -/
theorem steady_layouts (store : Store) (codes : Array Helper) (cap : Nat) :
    ((Engine.onStore store codes cap).use .layouts).Steady layoutHooks fun _ _ => True :=
  ⟨rfl, ⟨store.heap.identities, rfl⟩, .of_create cap rfl (Nat.zero_le _)⟩

/-- A template whose chain cannot be resolved raises what is wrong. -/
theorem withLayouts_of_error {layouts : Roster String} {template : String} {fault : LayoutFault}
    (h : resolve layouts template = .error fault) :
    withLayouts layouts template = raising fault.message := by
  rw [withLayouts, h]

/-! ### Raising the message -/

section Raising

variable {s : Setting} {bound : Nat}

/-- The routine of a message raises it, whatever the data. -/
theorem fails_invoke_raising (hhooks : s.hooks = layoutHooks) {m : String} {routine : Compiled}
    (hroutine : routine.program = ⟨[dataName, escapeName], raisingBody m⟩)
    (hescape : ∃ identity, s.escape = .native escapeName (.service .escape) identity)
    (fragment : String → Run String) (data : Value) (bound : Nat) (store : Store) :
    ∃ after, s.invoke (bound + 4) fragment routine data store
      = .error (.failed (.raised m)) after := by
  obtain ⟨identity, hescape⟩ := hescape
  have harity : routine.arity = 2 := by
    show routine.program.params.length = 2
    rw [hroutine]
    rfl
  let around : Surroundings := ⟨s.perform fragment, routine.number, callLimit⟩
  have hinvoke : s.invoke (bound + 4) fragment routine data store
      = (routine.program.run (bound + 4) around [data, s.escape] >>= Run.textOf) store := by
    rw [Setting.invoke_eq, hhooks, harity]
    rfl
  have hbegun := (begun_boundHeap store.heap data identity).newFrame
  have hempty : (boundHeap store.heap data identity).newFrame.2.frame
      (boundHeap store.heap data identity).frames.size = .empty := by
    rw [Heap.frame_newFrame, if_pos rfl]
  obtain ⟨after, hfails⟩ := fails_raisingBody m around
    { store with heap := (boundHeap store.heap data identity).newFrame.2 } hbegun.data hempty bound
  refine ⟨after, hinvoke.trans (run_bind_error ?_)⟩
  rw [hroutine, hescape, Program.run_eq, Program.runBound]
  exact (run_bind_ok (withFrame_eq _ _)).trans (run_bind_error hfails)

end Raising

/-! ### Rendering -/

section Rendering

variable {e : Engine} {P : String → Compiled → Prop} (h : e.Steady layoutHooks P)
  {template : String} {fault : LayoutFault}
  (hfault : resolve (e.setting.layouts.getD .empty) template = .error fault)

/-- A template whose chain cannot be resolved has a header at least. -/
theorem isEmpty_of_resolve_error {layouts : Roster String} {template : String} {fault : LayoutFault}
    (h : resolve layouts template = .error fault) : template.isEmpty = false := by
  rw [← Bool.not_eq_true, String.isEmpty_iff]
  rintro rfl
  cases h

include h hfault

/-- Rendering compiles the template that raises the message and runs its routine, unless there is
none. -/
theorem render_layoutFault_eq (bound : Nat) (data : Json) :
    (∃ stop, parseProgram [dataName, escapeName]
          (inDataScope (generate (tokenize (raising fault.message)))) = .error stop
        ∧ (e.clear.render bound (some template) data).1 = .error (Engine.stopError stop))
    ∨ ∃ routine program, parseProgram [dataName, escapeName]
          (inDataScope (generate (tokenize (raising fault.message)))) = .ok program
        ∧ routine.program = program.numbered
        ∧ ∃ store v, (e.clear.render bound (some template) data).1
          = ((Engine.mk e.setting store).performRun
              (e.setting.renderTop bound routine v)).1.mapError Engine.haltError := by
  let ready : Engine := (e.clear.make fun heap => heap.ofJson data).2
  have hkept : Kept e.setting (New e.setting) ready.store :=
    (Kept.of_clear h.kept.version_le).change _
  have hparse := parseProgram_of_layouts h.hooks template
  rw [withLayouts_of_error hfault] at hparse
  rw [Engine.render_eq_renderMade, Engine.renderMade_eq_renderBy, Engine.renderBy_some,
    isEmpty_of_resolve_error hfault, if_neg Bool.false_ne_true]
  rcases hkept.compile fun _ hnew => hnew with
    ⟨routine, after, hcompile, ⟨program, count, hprogram, hroutine⟩, -⟩
      | ⟨stop, after, hcompile, hstop, -⟩
  · refine .inr ⟨routine, program, hparse.symm.trans hprogram,
      congrArg Compiled.program hroutine, after, (e.clear.make fun heap => heap.ofJson data).1, ?_⟩
    have hmade : (e.clear.make fun heap => heap.ofJson data).2.compile template = _ :=
      Engine.compile_ok hcompile
    rw [hmade]
    rfl
  · refine .inl ⟨stop, hparse.symm.trans hstop, ?_⟩
    have hmade : (e.clear.make fun heap => heap.ofJson data).2.compile template = _ :=
      Engine.compile_error hcompile
    rw [hmade]

/-- A name that does not close the marker leaves the fault as it is. -/
theorem render_layoutFault_apart (hname : Apart ']' fault.name.toList) (bound : Nat)
    (data : Json) :
    (e.clear.render (bound + 4) (some template) data).1
      = .error (.render (.raised fault.message)) := by
  have hmessage := (apart_message fault).mpr hname
  rcases render_layoutFault_eq h hfault (bound + 4) data with
    ⟨stop, hstop, -⟩ | ⟨routine, program, hprogram, hroutine, store, v, hrender⟩
  · cases (parse_raising hmessage _).symm.trans hstop
  · cases (parse_raising hmessage _).symm.trans hprogram
    rw [numbered_raisingBody] at hroutine
    have hfails : Concludes (e.setting.renderTop (bound + 4) routine v) store
        (.error (.failed (.raised fault.message))) :=
      fails_invoke_raising h.hooks hroutine h.escape _ v bound store
    rw [hrender]
    exact congrArg (Except.mapError Engine.haltError)
      (Concludes.performRun (e := ⟨e.setting, store⟩) hfails)

/-- A name that closes the marker is reported as a fault of the source. -/
theorem render_layoutFault_closing (hname : ¬ Apart ']' fault.name.toList) (bound : Nat)
    (data : Json) :
    (e.clear.render bound (some template) data).1 = .error (.compile ⟨3, .openString⟩) := by
  have hmessage := mt (apart_message fault).mp hname
  rcases render_layoutFault_eq h hfault bound data with
    ⟨stop, hstop, hrender⟩ | ⟨routine, program, hprogram, -⟩
  · cases (parse_raising_cut hmessage _).symm.trans hstop
    exact hrender
  · cases (parse_raising_cut hmessage _).symm.trans hprogram

end Rendering

/-- **What becomes of a layout that is not found, or of a chain that is too long.**  On an engine
that resolves layouts and does nothing else, with every registry of layouts and all data, a template
whose chain cannot be resolved, and which is compiled anew, fails with what is wrong with its chain,
unless the name of the layout has two closing brackets in a row; then it fails because the source of
its routine cannot be read. -/
theorem render_layoutFault (store : Store) (codes : Array Helper) (cap : Nat)
    {ops : List Operation} (hops : ∀ op ∈ ops, op.isPlain = true) {e : Engine}
    (he : e = ((Engine.onStore store codes cap).use .layouts).after ops) {template : String}
    {fault : LayoutFault}
    (hfault : resolve (e.setting.layouts.getD .empty) template = .error fault) (data : Json)
    {bound : Nat} (hbound : 4 ≤ bound) :
    (contains closing fault.name.toList = false →
      (e.clear.render bound (some template) data).1 = .error (.render (.raised fault.message))
      ∧ (Error.render (.raised fault.message)).message = "Render failed: " ++ fault.message)
    ∧ (contains closing fault.name.toList = true →
      (e.clear.render bound (some template) data).1 = .error (.compile ⟨3, .openString⟩)) := by
  subst he
  obtain ⟨bound, rfl⟩ : ∃ b, bound = b + 4 := ⟨bound - 4, by omega⟩
  have h := (steady_layouts store codes cap).after (fun _ _ _ _ _ => trivial) hops
  refine ⟨fun hname => ⟨?_, rfl⟩, fun hname => ?_⟩
  · exact render_layoutFault_apart h hfault ((apart_iff _ _).mpr hname) bound data
  · refine render_layoutFault_closing h hfault (fun hapart => ?_) (bound + 4) data
    rw [closing, (apart_iff _ _).mp hapart] at hname
    cases hname

/-- A layout that extends itself. -/
def circular : List Operation := [.registerLayout "l" "[[ extends 'l' ]]", .compile "a"]

/-- A layout that is missing, one that extends itself, and one whose name closes the marker. -/
theorem render_layoutFault_circular :
    let e := ((Engine.create 8).use .layouts).after circular
    (e.clear.render 4 (some "[[ extends \"a]\" ]]") (.object [])).1
        = .error (.render (.raised "Layout \"a]\" not found"))
      ∧ (e.clear.render 4 (some "[[ extends \"l\" ]]") (.object [])).1
        = .error (.render (.raised
            "Layout \"l\" exceeds the maximum inheritance depth of 10"))
      ∧ (e.clear.render 4 (some "[[ extends \"a]]b\" ]]") (.object [])).1
        = .error (.compile ⟨3, .openString⟩) := by
  have hops : ∀ op ∈ circular, op.isPlain = true := by decide
  have hresolve :
      let layouts :=
        (((Engine.create 8).use .layouts).after circular).setting.layouts.getD .empty
      resolve layouts "[[ extends \"a]\" ]]" = .error (.missing "a]")
        ∧ resolve layouts "[[ extends \"l\" ]]" = .error (.depth "l")
        ∧ resolve layouts "[[ extends \"a]]b\" ]]" = .error (.missing "a]]b") := by
    decide +kernel
  generalize he : ((Engine.create 8).use .layouts).after circular = e at hresolve ⊢
  obtain ⟨hmissing, hdeep, hclosing⟩ := hresolve
  have hfails {template : String} {fault : LayoutFault}
      (hfault : resolve (e.setting.layouts.getD .empty) template = .error fault) :=
    render_layoutFault {} #[] 8 hops he.symm hfault (.object []) (Nat.le_refl 4)
  have hmessage : (LayoutFault.depth "l").message
      = "Layout \"l\" exceeds the maximum inheritance depth of 10" := by decide +kernel
  refine ⟨((hfails hmissing).1 (by decide)).1, ?_, (hfails hclosing).2 (by decide)⟩
  rw [← hmessage]
  exact ((hfails hdeep).1 (by decide)).1

/-- **A name that closes the marker.**  The chain is resolved to a missing layout, and the render
fails with something else. -/
theorem render_closingName :
    let e := (Engine.create 1).use .layouts
    resolve (e.setting.layouts.getD .empty) "[[ extends \"a]]b\" ]]" = .error (.missing "a]]b")
      ∧ (LayoutFault.missing "a]]b").message = "Layout \"a]]b\" not found"
      ∧ (e.render 1000 (some "[[ extends \"a]]b\" ]]") (.object [])).1
        = .error (.compile ⟨3, .openString⟩)
      ∧ (Error.compile ⟨3, .openString⟩).message
        = "Compilation failed: SyntaxError: unterminated string literal (line 3)" := by
  refine ⟨?_, ?_, ?_, ?_⟩ <;> decide +kernel

end Stencil
