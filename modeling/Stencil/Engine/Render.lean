import Stencil.Engine.Basic
import Stencil.Routine.Evaluate
import Stencil.Routine.Parser
import Stencil.Template.Layout
import Stencil.Template.Placeholder
import Stencil.Template.Shorthand
import Stencil.Text.Escape

/-!
# Rendering

A template is compiled into a routine, which is kept under the text of the template, and the routine
is run with the data.  While it runs, it may include fragments, which are rendered with the same
data; inclusions nest to a depth of ten.

* `Setting.source` — the source of the routine of a template;
* `Setting.compile` — the routine of a template, kept or new;
* `Setting.invoke` — runs a routine with the data and gives the text;
* `Setting.includeFragment` — renders a fragment;
* `Setting.perform` — what a routine can ask of the engine;
* `Engine.render`, `Engine.renderValue` — a template with data.
-/

namespace Stencil

open Routine

/-! ### Compiling -/

/-- The text that a change makes of a template. -/
def Preprocessor.apply (layouts : Roster String) : Preprocessor → String → String
  | .layouts, template => Template.withLayouts layouts template
  | .inclusions, template => Template.writeInclusions template
  | .messages, template => Template.writeMessages template
  | .custom change, template => change template

/-- The source that a change makes of a wrapped source, given the part inside the data scope. -/
def Wrapper.apply (inner : String) : Wrapper → String → String
  | .guarded, _ => Template.inGuardedScope inner
  | .custom change, wrapped => change wrapped inner

namespace Setting

/-- A template after all changes to its text. -/
def preprocess (s : Setting) (template : String) : String :=
  s.hooks.preprocessors.hooks.foldl
    (fun template p => p.apply (s.layouts.getD .empty) template) template

/-- The source of a routine around its inner part, after all changes to it. -/
def wrap (s : Setting) (inner : String) : String :=
  s.hooks.wrappers.hooks.foldl (fun wrapped w => w.apply inner wrapped)
    (Template.inDataScope inner)

/-- The source of the routine of a template. -/
def source (s : Setting) (template : String) : String :=
  s.wrap (Template.generate (Template.tokenize (s.preprocess template)))

/-- The store without routines that were compiled for other parameters. -/
def freshen (s : Setting) (store : Store) : Store :=
  if store.version = s.hooks.version then store
  else { store with cache := store.cache.clear, version := s.hooks.version }

/-- The routine of a template, which is compiled if it is not kept. -/
def compile (s : Setting) (template : String) : EStateM Stop Store Compiled := do
  modify s.freshen
  match (← get).cache.get? template with
  | some routine => return routine
  | none =>
    match parseProgram s.params (s.source template) with
    | .error stop => throw stop
    | .ok program =>
      modifyGet fun store =>
        let routine : Compiled :=
          ⟨s.numbering (s.source template) store.compiled, program.numbered⟩
        (routine, { store with
          cache := store.cache.insert template routine, compiled := store.compiled + 1 })

/-- The routine of a template that is rendered while another one runs. -/
def compileNested (s : Setting) (template : String) : Run Compiled := fun store =>
  match s.compile template store with
  | .ok routine store => .ok routine store
  | .error (.fault e) store => .error (.failed (.fragmentSource e)) store
  | .error .exhausted store => .error .endless store

/-! ### What routines can ask for -/

/-- The value that a source gives now. -/
def provide (s : Setting) : Provider → Run Value
  | .constant v => return v
  | .helpers => Run.newObject (s.helpers.getD .empty)
  | .custom make => Run.make make

/-- The value of what stands in a message. -/
def placeholderText (members : Roster Value) : Char ⊕ String → Run String
  | .inl c => return String.singleton c
  | .inr word =>
    match members.get? word with
    | some v => do return Template.fillPlaceholder word (some (← Run.textOf v))
    | none => return Template.fillPlaceholder word none

/-- A message with its placeholders filled from the members of an object, if there is one. -/
def fillMessage (message : String) : Option Value → Run String
  | some (.object place) => do
    let members := (← Run.heap).members place
    return String.join (← (Template.placeholders message).mapM (placeholderText members))
  | _ => return message

/-- The text of the first argument, which is empty if there is none. -/
def firstText : List Value → Run String
  | [] => return ""
  | v :: _ => Run.textOf v

/-- The text of a fragment, or nothing if it fails in a way that may be hidden. -/
def hidingFailure (run : Run String) : Run String :=
  tryCatch run fun halt =>
    match halt with
    | .failed f => if f.isProtocol then throw halt else return ""
    | .endless => throw halt

/-- Does what a routine asks for, given how a fragment is rendered. -/
def perform (s : Setting) (fragment : String → Run String) :
    Service → List Value → Run Value
  | .escape, args => do return .text (Text.escape (← Run.textOf (argument args 0)))
  | .fragment, args => do return .text (← fragment (← firstText args))
  | .chosenFragment, .text name :: _ => do return .text (← hidingFailure (fragment name))
  | .chosenFragment, _ => return .text ""
  | .message, args => do
    let key ← firstText args
    let message := (s.catalog.map (·.message key)).getD key
    return .text (← fillMessage message args[1]?)
  | .helper slot, args =>
    match s.codes[slot]? with
    | some code => Run.attempt (code args)
    | none => return .undefined

/-! ### Running -/

/-- The values of the additional parameters. -/
def provideAll (s : Setting) : Run (List Value) := s.hooks.providers.mapM s.provide

/-- Runs a compiled routine with the data and gives its text. -/
def invoke (s : Setting) (bound : Nat) (fragment : String → Run String) (routine : Compiled)
    (data : Value) : Run String := do
  let args := data :: s.escape :: (← s.provideAll)
  if args.length ≠ routine.arity then Run.fail (.arity routine.arity args.length)
  else
    let around : Surroundings := ⟨s.perform fragment, routine.number, callLimit⟩
    Run.textOf (← routine.program.run bound around args)

/-- The text of a template that is rendered while another one runs. -/
def renderNested (s : Setting) (bound : Nat) (fragment : String → Run String) (template : String)
    (data : Value) : Run String := do
  if template.isEmpty then return ""
  else s.invoke bound fragment (← s.compileNested template) data

/-- The text of a fragment inside which `levels` more inclusions may nest, itself included. -/
def includeFragment (s : Setting) (bound : Nat) (data : Value) : Nat → String → Run String
  | levels, name =>
    match (s.fragments.getD .empty).get? name with
    | none => Run.fail (.noFragment name)
    | some template =>
      match levels with
      | 0 => Run.fail (.fragmentDepth name)
      | levels + 1 => s.renderNested bound (s.includeFragment bound data levels) template data

section Inclusion

variable {s : Setting} {name : String}

theorem includeFragment_none (h : (s.fragments.getD .empty).get? name = none) (bound : Nat)
    (data : Value) (levels : Nat) :
    s.includeFragment bound data levels name = Run.fail (.noFragment name) := by
  cases levels <;> rw [includeFragment, h]

theorem includeFragment_zero {template : String}
    (h : (s.fragments.getD .empty).get? name = some template) (bound : Nat) (data : Value) :
    s.includeFragment bound data 0 name = Run.fail (.fragmentDepth name) := by
  rw [includeFragment, h]

theorem includeFragment_succ {template : String}
    (h : (s.fragments.getD .empty).get? name = some template) (bound : Nat) (data : Value)
    (levels : Nat) :
    s.includeFragment bound data (levels + 1) name
      = s.renderNested bound (s.includeFragment bound data levels) template data := by
  rw [includeFragment, h]

end Inclusion

/-- What becomes of an inclusion in a routine that runs without an engine. -/
def includeAlone (s : Setting) (name : String) : Run String :=
  match (s.fragments.getD .empty).get? name with
  | none => Run.fail (.noFragment name)
  | some _ => Run.fail .noEngine

/-- Runs a compiled routine at the top and gives its text. -/
def renderTop (s : Setting) (bound : Nat) (routine : Compiled) (data : Value) : Run String :=
  s.invoke bound (s.includeFragment bound data nestingLimit) routine data

/-- What a program gives back that is run with the data, nothing to escape with and the values of
the additional parameters, but without an engine. -/
def runAlone (s : Setting) (bound : Nat) (program : Program) (data : Value) : Run Value := do
  let args := data :: .undefined :: (← s.provideAll)
  let number ← modifyGet fun store =>
    (store.compiled, { store with compiled := store.compiled + 1 })
  program.numbered.run bound ⟨s.perform s.includeAlone, number, callLimit⟩ args

end Setting

namespace Engine

/-- What a run gives, and the engine after it. -/
def performRun {α : Type} (e : Engine) (run : Run α) : Except Halt α × Engine :=
  match run.run e.store with
  | .ok a store => (.ok a, { e with store := store })
  | .error halt store => (.error halt, { e with store := store })

/-- The error that a halted render reports. -/
def haltError : Halt → Error
  | .failed f => .render f
  | .endless => .endless

/-- The routine of a template, and the engine that keeps it. -/
def compile (e : Engine) (template : String) : Except Error Compiled × Engine :=
  match (e.setting.compile template).run e.store with
  | .ok routine store => (.ok routine, { e with store := store })
  | .error (.fault fault) store => (.error (.compile fault), { e with store := store })
  | .error .exhausted store => (.error .endless, { e with store := store })

/-- The text of a template with a value as its data.  The bound limits the steps of the run. -/
def renderValue (e : Engine) (bound : Nat) (template : Option String) (data : Value) :
    Except Error String × Engine :=
  match template with
  | none => (.error .missingTemplate, e)
  | some template =>
    if template.isEmpty then (.error .missingTemplate, e)
    else
      match e.compile template with
      | (.error err, e) => (.error err, e)
      | (.ok routine, e) =>
        match e.performRun (e.setting.renderTop bound routine data) with
        | (.ok text, e) => (.ok text, e)
        | (.error halt, e) => (.error (haltError halt), e)

/-- The text of a template with a JSON value as its data. -/
def render (e : Engine) (bound : Nat) (template : Option String) (data : Json) :
    Except Error String × Engine :=
  let (v, e) := e.make fun h => h.ofJson data
  e.renderValue bound template v

end Engine

end Stencil
