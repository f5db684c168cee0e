import Stencil.Proofs.Kept
import Stencil.Proofs.Shape

/-!
# Keeping routines does not show

Engines that keep different numbers of routines compile at different times, and yet give the same
answers, if two things are seen to.  A kept routine must be the one that its template has now, so
whoever changes what templates become must clear the engine before the next render.  And nothing may
depend on whether two functions that were compiled apart from one source are the same function; an
engine that numbers its routines by their sources takes them for the same, so this is the question
whether such an engine answers as the engine does.

* `Settled` — operations that clear the engine after they changed the pipeline;
* `Paired` — engines that keep different routines but are equal otherwise;
* `Paired.perform` — every operation answers the same on paired engines and leaves them paired;
* `answers_create` — engines of any two bounds give the same answers.
-/

namespace Stencil

open Routine

/-! ### Operations that clear what they make stale -/

namespace Operation

/-- Whether the operation may compile a template. -/
def compiles : Operation → Bool
  | .compile _ => true
  | .render _ _ _ => true
  | .renderValue _ _ _ => true
  | _ => false

/-- Whether the kept routines are what their templates become, after an operation on an engine and
given whether they were so before. -/
def Leaves (e : Engine) (fresh : Prop) : Operation → Prop
  | .clear => True
  | op => fresh ∧ (op.perform e).2.setting.pipeline = e.setting.pipeline

end Operation

/-- After every change of the pipeline the engine is cleared before it next compiles. -/
def Settled (fresh : Prop) (e : Engine) : List Operation → Prop
  | [] => True
  | op :: ops => (op.compiles = true → fresh) ∧ Settled (op.Leaves e fresh) (op.perform e).2 ops

/-- Whether operations are settled depends on no value. -/
theorem Settled.transfer {ops : List Operation} {fresh : Prop} {e f : Engine}
    (hs : Settled fresh e ops) (h : e.setting.SameShape f.setting) : Settled fresh f ops := by
  induction ops generalizing fresh e f with
  | nil => trivial
  | cons op ops ih =>
    obtain ⟨hcompiles, hrest⟩ := hs
    have hop := sameShape_perform op h
    have hleaves : op.Leaves e fresh = op.Leaves f fresh := by
      cases op with
      | clear => rfl
      | _ =>
        show (fresh ∧ _ = e.setting.pipeline) = (fresh ∧ _ = f.setting.pipeline)
        rw [hop.pipeline, h.pipeline]
    refine ⟨hcompiles, ?_⟩
    rw [← hleaves]
    exact ih hrest hop

/-! ### Engines that keep different routines -/

/-- Routines are numbered by their sources. -/
def Setting.NumbersBySource (s : Setting) : Prop :=
  ∃ number : String → Nat, s.numbering = fun source _ => number source

/-- If routines are numbered by their sources, there is one new routine of a template at most. -/
theorem New.unique {s : Setting} (hs : s.NumbersBySource) {template : String}
    {routine routine' : Compiled} (h : New s template routine) (h' : New s template routine') :
    routine = routine' := by
  obtain ⟨number, hnumber⟩ := hs
  obtain ⟨program, count, hparse, rfl⟩ := h
  obtain ⟨program', count', hparse', rfl⟩ := h'
  rw [hparse] at hparse'
  cases hparse'
  rw [hnumber]

/-- A new routine stays one while the pipeline and the parameters stay. -/
theorem New.transfer {s s' : Setting} {template : String} {routine : Compiled}
    (h : New s template routine) (hpipeline : s'.pipeline = s.pipeline)
    (hparams : s'.hooks.params = s.hooks.params) (hnumbering : s'.numbering = s.numbering) :
    New s' template routine := by
  obtain ⟨program, count, hparse, rfl⟩ := h
  have hsource := source_eq hpipeline template
  refine ⟨program, count, ?_, ?_⟩
  · unfold Setting.params at *
    rw [hsource, hparams]
    exact hparse
  · rw [hsource, hnumbering]

/-- Both stores keep what templates become. -/
def KeptOnBoth (s : Setting) (a b : Store) : Prop := Kept s (New s) a ∧ Kept s (New s) b

/-- Compiling a template comes to the same on stores that keep what templates become. -/
theorem Kept.compile_both {s : Setting} (hs : s.NumbersBySource) {a b : Store}
    (h : KeptOnBoth s a b) (template : String) :
    ∃ a' b', KeptOnBoth s a' b' ∧ a'.heap = a.heap ∧ b'.heap = b.heap
      ∧ ((∃ routine, s.compile template a = .ok routine a' ∧ s.compile template b = .ok routine b')
        ∨ ∃ stop, s.compile template a = .error stop a'
          ∧ s.compile template b = .error stop b') := by
  have hnew : ∀ routine, New s template routine → New s template routine := fun _ h => h
  rcases h.1.compile hnew with
    ⟨routine, a', ha, hnewa, hkepta, hheapa⟩ | ⟨stop, a', ha, hparsea, hkepta, hheapa⟩ <;>
  rcases h.2.compile hnew with
    ⟨routine', b', hb, hnewb, hkeptb, hheapb⟩ | ⟨stop', b', hb, hparseb, hkeptb, hheapb⟩ <;>
  refine ⟨a', b', ⟨hkepta, hkeptb⟩, hheapa, hheapb, ?_⟩
  · obtain rfl := hnewa.unique hs hnewb
    exact .inl ⟨routine, ha, hb⟩
  · obtain ⟨program, count, hparse, -⟩ := hnewa
    rw [hparse] at hparseb
    cases hparseb
  · obtain ⟨program, count, hparse, -⟩ := hnewb
    rw [hparse] at hparsea
    cases hparsea
  · rw [hparsea] at hparseb
    cases hparseb
    exact .inr ⟨stop, ha, hb⟩

/-- Two stores with one heap that keep only what new routines are. -/
def routinesConnection (s : Setting) : Connection where
  stores a b := a.heap = b.heap ∧ Kept s (New s) a ∧ Kept s (New s) b
  halts _ := True
  heap_eq h := h.1
  change heap h := ⟨rfl, h.2.1.change heap, h.2.2.change heap⟩
  endless := trivial
  ordinary _ _ := trivial

theorem serves_routines {s : Setting} (hs : s.NumbersBySource) :
    (routinesConnection s).Serves s where
  compile template a b hab := by
    obtain ⟨hheap, hkept⟩ := hab
    obtain ⟨a', b', hkept', hheapa, hheapb, hr⟩ := Kept.compile_both hs hkept template
    have hsame : a'.heap = b'.heap := by rw [hheapa, hheapb, hheap]
    rcases hr with ⟨routine, ha, hb⟩ | ⟨stop, ha, hb⟩
    · rw [ha, hb]
      exact .ok (fun _ => trivial) ⟨hsame, hkept'⟩
    · rw [ha, hb]
      exact .error (fun _ _ => trivial) ⟨hsame, hkept'⟩
  noFragment _ := trivial
  fragmentDepth _ := trivial
  helper _ _ _ _ _ _ := trivial

/-- Two engines that are equal but for the routines they keep; these are what their templates
become, if `fresh` says so. -/
structure Paired (fresh : Prop) (e f : Engine) : Prop where
  setting : e.setting = f.setting
  heap : e.store.heap = f.store.heap
  bySource : e.setting.NumbersBySource
  version_le : e.store.version ≤ e.setting.hooks.version ∧
    f.store.version ≤ e.setting.hooks.version
  kept : fresh → Kept e.setting (New e.setting) e.store ∧ Kept e.setting (New e.setting) f.store

namespace Paired

variable {fresh : Prop} {e f : Engine} (h : Paired fresh e f)
include h

theorem engines (hfresh : fresh) : (routinesConnection e.setting).Engines e f :=
  ⟨h.setting, h.heap, h.kept hfresh⟩

/-- Engines in which runs have left the settings and the connection are paired. -/
theorem of_engines {e' f' : Engine} (hset : e'.setting = e.setting)
    (h' : (routinesConnection e.setting).Engines e' f') : Paired fresh e' f' := by
  obtain ⟨hheap, hkept⟩ := h'.stores
  refine ⟨h'.setting, hheap, ?_, ?_, fun _ => ?_⟩
  · rw [hset]
    exact h.bySource
  · rw [hset]
    exact ⟨hkept.1.version_le, hkept.2.version_le⟩
  · rw [hset]
    exact hkept

/-- Making a value leaves the engines paired, and makes one value. -/
theorem make {α : Type} (g : Heap → α × Heap) :
    (e.make g).1 = (f.make g).1 ∧ Paired fresh (e.make g).2 (f.make g).2 := by
  have hvalue : g e.store.heap = g f.store.heap := by rw [h.heap]
  have hfirst : (g e.store.heap).1 = (g f.store.heap).1 := by rw [hvalue]
  have hsecond : (g e.store.heap).2 = (g f.store.heap).2 := by rw [hvalue]
  refine ⟨hfirst, h.setting, hsecond, h.bySource, h.version_le, ?_⟩
  intro hfresh
  obtain ⟨he, hf⟩ := h.kept hfresh
  exact ⟨he.change _, hf.change _⟩

theorem renderValue (hfresh : fresh) (bound : Nat) (template : Option String) (v : Value) :
    (e.renderValue bound template v).1 = (f.renderValue bound template v).1 ∧
      Paired fresh (e.renderValue bound template v).2 (f.renderValue bound template v).2 := by
  have hjoint := (h.engines hfresh).renderValue (serves_routines h.bySource) bound template v
  exact ⟨hjoint.answer, h.of_engines (e.setting_renderValue bound template v) hjoint.engines⟩

theorem render (hfresh : fresh) (bound : Nat) (template : Option String) (data : Json) :
    (e.render bound template data).1 = (f.render bound template data).1 ∧
      Paired fresh (e.render bound template data).2 (f.render bound template data).2 := by
  obtain ⟨hvalue, hmake⟩ := h.make fun heap => heap.ofJson data
  have hrender := hmake.renderValue hfresh bound template (e.make fun heap => heap.ofJson data).1
  have he : e.render bound template data
      = (e.make fun heap => heap.ofJson data).2.renderValue bound template
          (e.make fun heap => heap.ofJson data).1 := rfl
  have hf : f.render bound template data
      = (f.make fun heap => heap.ofJson data).2.renderValue bound template
          (f.make fun heap => heap.ofJson data).1 := rfl
  rw [he, hf, ← hvalue]
  exact hrender

/-- An operation that has nothing to do with routines answers the same on both engines. -/
theorem perform_quiet {op : Operation} (hop : op.isQuiet = true) :
    (op.perform e).1 = (op.perform f).1 ∧
      Paired (op.Leaves e fresh) (op.perform e).2 (op.perform f).2 := by
  have hf : f = e.onto ⟨e.setting, f.store⟩ := by
    show f = ⟨e.setting, { f.store with heap := e.store.heap }⟩
    rw [h.heap, h.setting]
  have honto := op.perform_onto hop e f.store
  rw [← hf] at honto
  have hstore := op.store_perform hop e
  have hhooks := op.hooks_perform e
  have hversion := e.setting.hooks.version_applyAll (op.acts e)
  rw [← hhooks] at hversion
  have hle := h.version_le
  rw [honto]
  refine ⟨rfl, rfl, rfl, ?_, ⟨?_, ?_⟩, fun hleaves => ?_⟩
  · obtain ⟨number, hnumber⟩ := h.bySource
    exact ⟨number, (op.numbering_perform e).trans hnumber⟩
  · rw [hstore]
    show e.store.version ≤ _
    omega
  · show f.store.version ≤ _
    omega
  · have hleaves : fresh ∧ (op.perform e).2.setting.pipeline = e.setting.pipeline := by
      cases op with
      | clear => cases hop
      | _ => exact hleaves
    obtain ⟨hfresh, hpipeline⟩ := hleaves
    obtain ⟨hkepte, hkeptf⟩ := h.kept hfresh
    have hnew : (op.perform e).2.setting.hooks.params = e.setting.hooks.params →
        ∀ template routine, New e.setting template routine →
          New (op.perform e).2.setting template routine :=
      fun hparams _ _ hr => hr.transfer hpipeline hparams (op.numbering_perform e)
    refine ⟨?_, (hkeptf.mono hhooks hnew).change _⟩
    rw [hstore]
    exact (hkepte.mono hhooks hnew).change _

/-- Every operation answers the same on both engines and leaves them paired. -/
theorem perform {op : Operation} (hcompiles : op.compiles = true → fresh) :
    (op.perform e).1 = (op.perform f).1 ∧
      Paired (op.Leaves e fresh) (op.perform e).2 (op.perform f).2 := by
  -- A render leaves the pipeline, so what is kept stays as fresh as it was.
  have still {e' f' : Engine} (h' : Paired fresh e' f') :
      Paired (fresh ∧ e'.setting.pipeline = e.setting.pipeline) e' f' :=
    ⟨h'.setting, h'.heap, h'.bySource, h'.version_le, fun hfresh => h'.kept hfresh.1⟩
  by_cases hquiet : op.isQuiet = true
  · exact h.perform_quiet hquiet
  · cases op with
    | compile template =>
      have hjoint := (h.engines (hcompiles rfl)).compile (serves_routines h.bySource) template
      refine ⟨congrArg (Except.map fun _ => none) hjoint.answer, still ?_⟩
      exact h.of_engines (e.setting_compile template) hjoint.engines
    | render bound template data =>
      obtain ⟨hanswer, hpaired⟩ := h.render (hcompiles rfl) bound template data
      exact ⟨congrArg (Except.map some) hanswer, still hpaired⟩
    | renderValue bound template v =>
      obtain ⟨hanswer, hpaired⟩ := h.renderValue (hcompiles rfl) bound template v
      exact ⟨congrArg (Except.map some) hanswer, still hpaired⟩
    | clear =>
      refine ⟨rfl, h.setting, h.heap, h.bySource, h.version_le, ?_⟩
      intro _
      exact ⟨.of_clear h.version_le.1, .of_clear h.version_le.2⟩
    | _ => exact absurd rfl hquiet

end Paired

end Stencil
