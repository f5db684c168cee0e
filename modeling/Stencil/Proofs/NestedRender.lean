import Stencil.Proofs.Isolation
import Stencil.Proofs.Reading.Nesting
import Stencil.Proofs.Reading.Splicing
import Stencil.Proofs.Surfacing

/-!
# An inclusion is a nested render

On an engine that includes fragments, a template that includes one fragment between two texts
becomes the text that the fragment is rendered as, between the two texts.  The fragment is run on a
heap that has some more frames than the one a render begins with, and shares the kept routines.

* `Heap.ofJson_frames` — JSON values are built without regard to frames;
* `Setting.includeBeyond`, `Engine.NestsWithin` — how deep the inclusions of a render are nested;
* `brings_includeFragment` — a fragment comes to the same behind more frames, and spares them;
* `render_splice` — the main theorem;
* `splice_mistaken` — compiling the including template can push out what the fragment needs.
-/

namespace Stencil

open Routine Likeness Reading Template

/-! ### Frames and JSON values -/

namespace Routine.Heap

mutual

/-- JSON values are built without regard to frames. -/
theorem ofJson_frames (h : Heap) (frames : Array (Roster Binding)) (j : Json) :
    ({ h with frames := frames } : Heap).ofJson j
      = ((h.ofJson j).1, { (h.ofJson j).2 with frames := frames }) := by
  match j with
  | .null => rfl
  | .bool b => rfl
  | .number n => rfl
  | .text s => rfl
  | .array items =>
    rw [ofJson, ofJson, ofJsonItems_frames h frames items]
    rfl
  | .object members =>
    rw [ofJson, ofJson, ofJsonMembers_frames h frames members]
    rfl

theorem ofJsonItems_frames (h : Heap) (frames : Array (Roster Binding)) (js : List Json) :
    ({ h with frames := frames } : Heap).ofJsonItems js
      = ((h.ofJsonItems js).1, { (h.ofJsonItems js).2 with frames := frames }) := by
  match js with
  | [] => rfl
  | j :: js =>
    rw [ofJsonItems, ofJsonItems, ofJson_frames h frames j]
    dsimp only
    rw [ofJsonItems_frames (h.ofJson j).2 frames js]

theorem ofJsonMembers_frames (h : Heap) (frames : Array (Roster Binding))
    (js : List (String × Json)) :
    ({ h with frames := frames } : Heap).ofJsonMembers js
      = ((h.ofJsonMembers js).1, { (h.ofJsonMembers js).2 with frames := frames }) := by
  match js with
  | [] => rfl
  | (name, j) :: js =>
    rw [ofJsonMembers, ofJsonMembers, ofJson_frames h frames j]
    dsimp only
    rw [ofJsonMembers_frames (h.ofJson j).2 frames js]

end

end Routine.Heap

/-! ### How deep inclusions are nested -/

/-- The text of a fragment inside which `levels` more inclusions may nest, itself included, given
what becomes of an inclusion beyond them. -/
def Setting.includeBeyond (s : Setting) (bound : Nat) (data : Value)
    (beyond : String → Run String) : Nat → String → Run String
  | 0, name => beyond name
  | levels + 1, name =>
    match (s.fragments.getD .empty).get? name with
    | none => Run.fail (.noFragment name)
    | some template =>
      s.renderNested bound (s.includeBeyond bound data beyond levels) template data

/-- A render in which something else becomes of inclusions that are nested deeper. -/
def Engine.renderBeyond (e : Engine) (levels bound : Nat) (template : String) (data : Json)
    (beyond : String → Run String) : Except Error String × Engine :=
  e.renderBy (some template)
    (fun routine v =>
      e.setting.invoke bound (e.setting.includeBeyond bound v beyond levels) routine v)
    fun h => h.ofJson data

/-- **The render nests at most so many inclusions**: whatever became of an inclusion that is nested
deeper, the answer would be the same. -/
def Engine.NestsWithin (e : Engine) (levels bound : Nat) (template : String) (data : Json) : Prop :=
  ∀ beyond, (e.renderBeyond levels bound template data beyond).1
    = (e.render bound (some template) data).1

section Depth

variable {s : Setting} {bound : Nat} {data : Value}

/-- Inclusions may nest so many levels, and then some more. -/
theorem includeBeyond_includeFragment (levels more : Nat) :
    s.includeBeyond bound data (s.includeFragment bound data more) levels
      = s.includeFragment bound data (more + levels) := by
  induction levels with
  | zero => rfl
  | succ levels ih =>
    funext name
    rw [Setting.includeBeyond, ih, ← Nat.add_assoc]
    exact (Setting.includeFragment.eq_def s bound data (more + levels + 1) name).symm

/-- Where what becomes of an inclusion that is nested deeper makes a difference, refusing it
surfaces. -/
theorem surfaces_includeBeyond {f : Failure} (hf : f.isProtocol = true)
    (beyond : String → Run String) (levels : Nat) (name : String) :
    Surfaces f (s.includeBeyond bound data beyond levels name)
      (s.includeBeyond bound data (fun _ => Run.fail f) levels name) := by
  induction levels generalizing name with
  | zero => exact fun store => .inr ⟨store, rfl⟩
  | succ levels ih =>
    rw [Setting.includeBeyond, Setting.includeBeyond]
    cases (s.fragments.getD .empty).get? name with
    | none => exact .refl _
    | some template =>
      dsimp only [Setting.renderNested]
      split
      · exact .refl _
      · exact (Surfaces.refl _).bind fun routine => surfaces_invoke hf ih routine

/-- A render is one in which more inclusions may nest. -/
theorem render_eq_renderBeyond (e : Engine) {levels : Nat} (hlevels : levels ≤ nestingLimit)
    (template : String) (data : Json) :
    e.render bound (some template) data
      = e.renderBy (some template)
          (fun routine v => e.setting.invoke bound (e.setting.includeBeyond bound v
            (e.setting.includeFragment bound v (nestingLimit - levels)) levels) routine v)
          fun h => h.ofJson data := by
  rw [Engine.render_eq_renderMade, Engine.renderMade_eq_renderBy]
  congr 1
  funext routine v
  rw [includeBeyond_includeFragment, Nat.sub_add_cancel hlevels, Setting.renderTop]

/-- A render that gives a text although deeper inclusions are refused nests no deeper. -/
theorem nestsWithin_of_ok {e : Engine} {levels : Nat} (hlevels : levels ≤ nestingLimit)
    {template : String} {data : Json} {f : Failure} (hf : f.isProtocol = true) {text : String}
    (h : (e.renderBeyond levels bound template data fun _ => Run.fail f).1 = .ok text) :
    e.NestsWithin levels bound template data := by
  have hsame (beyond : Value → String → Run String) :
      e.renderBy (some template) (fun routine v =>
          e.setting.invoke bound (e.setting.includeBeyond bound v (beyond v) levels) routine v)
          (fun h => h.ofJson data)
        = e.renderBeyond levels bound template data fun _ => Run.fail f := by
    refine (renderBy_surfaces e (some template) (fun routine v => surfaces_invoke hf
      (fun name => surfaces_includeBeyond hf (beyond v) levels name) routine) _).resolve_right ?_
    intro herror
    exact absurd (h.symm.trans herror) nofun
  intro beyond
  rw [render_eq_renderBeyond e hlevels, hsame fun v => _]
  exact congrArg Prod.fst (hsame fun _ => beyond)

end Depth

/-! ### A fragment behind more frames -/

/-- The stores differ in their heaps only. -/
def KeepSame (a b : Store) : Prop := b = { a with heap := b.heap }

/-- Compiling a template leaves the heap. -/
theorem heap_compile (s : Setting) (template : String) (store : Store) :
    match s.compile template store with
    | .ok _ after => after.heap = store.heap
    | .error _ after => after.heap = store.heap := by
  have hheap := Kept.heap_freshen s store
  rw [Kept.compile_eq]
  cases (s.freshen store).cache.get? template with
  | some routine => exact hheap
  | none => cases parseProgram s.params (s.source template) <;> exact hheap

/-- Fragments are compiled alike on stores that keep the same routines. -/
theorem settles_compileNested_same {s : Setting} {G : Grounds} {F : Filter Unit} (w : Amount)
    (template : String) :
    (G.moving KeepSame).Settles F w (G.moving KeepSame).Same (fun _ => s.compileNested template)
      (fun _ => s.compileNested template) := by
  refine Settles.of_outcome fun w' _ a b hab => ?_
  obtain ⟨hb, hkept⟩ := hab
  have hsame : b = { a with heap := b.heap } := hkept a.heap b.heap
  have hchange := Kept.compile_change s template a b.heap
  rw [← hsame] at hchange
  have hheap := heap_compile s template a
  simp only [Setting.compileNested]
  rw [hchange]
  generalize s.compile template a = r at hheap
  cases r with
  | ok routine after => exact .ok le_rfl ⟨hheap ▸ hb, fun _ _ => rfl⟩ rfl
  | error stop after =>
    cases stop with
    | fault e => exact .failed _ le_rfl ⟨hheap ▸ hb, fun _ _ => rfl⟩
    | exhausted => exact .endless le_rfl ⟨hheap ▸ hb, fun _ _ => rfl⟩ trivial

/-- **A fragment comes to the same behind more frames**, and spares them. -/
theorem brings_includeFragment {s : Setting} {shared : Nat} (hs : s.IsPortable shared) {h : Heap}
    {data : Json} {store after : Store} (hstore : store.heap = (h.ofJson data).2) {bound : Nat}
    {levels : Nat} {name text : String}
    (hok : s.includeFragment bound (h.ofJson data).1 levels name store = .ok text after)
    (heap : Heap) (hheap : SameButFrames store.heap heap) :
    Brings (s.includeFragment bound (h.ofJson data).1 levels name) { store with heap := heap }
      (.ok text) := by
  let G : Grounds := ⟨h, { h with frames := heap.frames }, shared, .inl rfl⟩
  obtain ⟨w, -, hv, hbuilt⟩ := isPortable_ofJson data G {} _ _ G.built_nothing
  have hright : G.right.ofJson data = ((h.ofJson data).1, heap) := by
    rw [Heap.ofJson_frames h heap.frames data, ← hstore, ← hheap]
  dsimp only at hbuilt hv
  rw [hright] at hbuilt hv
  have hstores : (G.moving KeepSame).stores w store { store with heap := heap } :=
    ⟨hstore ▸ hbuilt, fun _ _ => rfl⟩
  have hsettles := settles_includeFragment (F := pure ()) hs settles_compileNested_same bound levels
    hv name
  rcases hsettles w le_rfl store { store with heap := heap } hstores with
    ⟨f, t, hf, -⟩ | ⟨r, r', hr, ho⟩
  · exact hf.elim
  · obtain ⟨hr, hr'⟩ : _ = r ∧ _ = r' := hr
    obtain rfl : .ok text after = r := hok.symm.trans hr
    cases ho with
    | ok hw hs h =>
      obtain rfl := h
      have hsize := hs.1.frames.size'
      refine ⟨_, hr', ?_, hs.1.spared⟩
      rw [hsize]
      exact Nat.le_add_right _ _

/-! ### The including template -/

theorem Reading.Concludes.performRun {α : Type} {e : Engine} {run : Run α} {r : Except Halt α}
    (h : Concludes run e.store r) : (e.performRun run).1 = r := by
  rw [Engine.performRun, EStateM.run]
  cases r with
  | ok a =>
    obtain ⟨after, hok⟩ := h
    rw [hok]
  | error halt =>
    obtain ⟨after, hfail⟩ := h
    rw [hfail]

/-- A text that a render gives is the result of a run. -/
theorem Engine.run_of_performRun {α : Type} {e : Engine} {run : Run α} {a : α}
    (h : (e.performRun run).1.mapError haltError = .ok a) : ∃ after, run e.store = .ok a after := by
  rw [performRun, EStateM.run] at h
  cases hrun : run e.store with
  | ok b after =>
    rw [hrun] at h
    cases h
    exact ⟨after, rfl⟩
  | error halt after =>
    rw [hrun] at h
    cases h

/-- The template is not empty. -/
theorem Reading.Splice.isEmpty_print (t : Splice) : t.print.isEmpty = false := by
  rw [← Bool.not_eq_true, String.isEmpty_iff]
  intro hempty
  have hchars := congrArg String.toList hempty
  rw [print, String.toList_ofList] at hchars
  cases (List.append_eq_nil_iff.mp (List.append_eq_nil_iff.mp hchars).2).1

section Including

variable {e : Engine} {byName byValue : Nat} (h : e.Steady (inclusionHooks byName byValue) FromPage)
  (t : Splice) {members : List (String × Json)}
  (hkey : (Roster.ofList members).get? fragmentFunction = none) (bound : Nat)

include h

/-- Compiling the template gives the routine of its program, and leaves the heap. -/
theorem compile_splice :
    ∃ routine after, e.setting.compile t.print e.store = .ok routine after
      ∧ routine.program = ⟨pageParams, t.body⟩ ∧ after.heap = e.store.heap := by
  obtain ⟨routine, after, hcompile, hprogram, -, hheap⟩ :=
    compile_known h.hooks (t.parse_splice pageParams) h.kept
  exact ⟨routine, after, hcompile, hprogram.trans (t.numbered_body pageParams), hheap⟩

include hkey

/-- The template becomes what its fragment comes to, between its texts. -/
theorem render_of_brings {r : Except Halt String}
    (hbrings : ∀ heap, SameButFrames (e.store.heap.ofJson (.object members)).2 heap →
      Brings (e.setting.includeFragment (bound + 5) (e.store.heap.ofJson (.object members)).1
        nestingLimit t.name.text) { (e.compile t.print).2.store with heap := heap } r) :
    (e.render (bound + 5) (some t.print) (.object members)).1
      = (r.map t.around).mapError Engine.haltError := by
  obtain ⟨routine, after, hcompile, hroutine, -⟩ := compile_splice h t
  obtain ⟨object, hobject, habsent⟩ := exists_object_ofJson e.store.heap members
  have hdata := Kept.compile_change e.setting t.print e.store
    (e.store.heap.ofJson (.object members)).2
  rw [hcompile] at hdata
  rw [Engine.compile_ok hcompile, hobject] at hbrings
  have hrun : Concludes (e.setting.renderTop (bound + 5) routine (.object object))
      { after with heap := (e.store.heap.ofJson (.object members)).2 } (r.map t.around) :=
    concludes_splice t h.hooks hroutine (habsent _ hkey) hbrings bound
  rw [Engine.render_eq_renderMade, Engine.renderMade_eq_renderBy, Engine.renderBy_some,
    t.isEmpty_print, if_neg Bool.false_ne_true]
  have hmade : (e.make fun h => h.ofJson (.object members)).2.compile t.print = _ :=
    Engine.compile_ok hdata
  have hvalue : (e.make fun h => h.ofJson (.object members)).1 = .object object := hobject
  rw [hmade, hvalue]
  exact congrArg (Except.mapError Engine.haltError)
    (Concludes.performRun (e := ⟨e.setting, _⟩) hrun)

variable (hname : (e.setting.fragments.getD .empty).get? t.name.text = none)

include hname in
/-- A fragment that is not there makes the template fail. -/
theorem render_unregistered :
    (e.render (bound + 5) (some t.print) (.object members)).1
      = .error (.render (.noFragment t.name.text)) := by
  refine render_of_brings h t hkey bound (r := .error (.failed (.noFragment t.name.text)))
    fun heap _ => ⟨{ (e.compile t.print).2.store with heap := heap }, ?_⟩
  rw [Setting.includeFragment_none hname]
  rfl

end Including

/-- A fragment comes to the text that its template is rendered as. -/
theorem includeFragment_of_render {e : Engine} {source name text : String} {data : Json}
    {bound levels : Nat} (hname : (e.setting.fragments.getD .empty).get? name = some source)
    (hnests : e.NestsWithin levels bound source data)
    (hok : (e.render bound (some source) data).1 = .ok text) :
    ∃ after, e.setting.includeFragment bound (e.store.heap.ofJson data).1 (levels + 1) name
      { e.store with heap := (e.store.heap.ofJson data).2 } = .ok text after := by
  have h := hnests (e.setting.includeFragment bound (e.store.heap.ofJson data).1 0)
  rw [hok, Engine.renderBeyond, Engine.renderBy_some] at h
  split at h
  · cases h
  rename_i hempty
  have hnested : e.setting.includeFragment bound (e.store.heap.ofJson data).1 (levels + 1) name
      = (e.setting.compileNested source >>= fun routine =>
          e.setting.invoke bound (e.setting.includeFragment bound (e.store.heap.ofJson data).1
            levels) routine (e.store.heap.ofJson data).1) := by
    rw [Setting.includeFragment_succ hname, Setting.renderNested, if_neg hempty]
  rw [hnested]
  cases hcompile : e.setting.compile source
      { e.store with heap := (e.store.heap.ofJson data).2 } with
  | error stop after =>
    have hmade : (e.make fun h => h.ofJson data).2.compile source = _ :=
      Engine.compile_error hcompile
    rw [hmade] at h
    cases h
  | ok routine after =>
    have hmade : (e.make fun h => h.ofJson data).2.compile source = _ :=
      Engine.compile_ok hcompile
    have hroutine : e.setting.compileNested source
        { e.store with heap := (e.store.heap.ofJson data).2 } = .ok routine after := by
      rw [Setting.compileNested, hcompile]
    rw [hmade] at h
    have hdata : (e.make fun h => h.ofJson data).1 = (e.store.heap.ofJson data).1 := rfl
    dsimp only at h
    rw [hdata, includeBeyond_includeFragment, Nat.zero_add] at h
    obtain ⟨last, hlast⟩ := Engine.run_of_performRun h
    exact ⟨last, (run_bind_ok hroutine).trans hlast⟩

/-! ### Histories of fragments -/

/-- What is registered under a name after an operation, given what was before it. -/
def Operation.registers (name : String) (before : Option String) : Operation → Option String
  | .registerFragment other source => if other = name then some source else before
  | .removeFragment other => if other = name then none else before
  | _ => before

/-- The source that was registered last under a name and not removed since. -/
def lastSource (name : String) (ops : List Operation) : Option String :=
  ops.foldl (fun before op => op.registers name before) none

/-- The engine includes fragments, and knows no helpers. -/
structure Engine.IncludesOnly (e : Engine) (registry : Roster String) : Prop where
  fragments : e.setting.fragments = some registry
  helpers : e.setting.helpers = none
  codes : e.setting.codes = #[]

namespace Engine.IncludesOnly

variable {e : Engine} {registry : Roster String}

/-- An operation changes the registry as it says. -/
theorem perform (h : e.IncludesOnly registry) {op : Operation} (hop : op.isPlain = true) :
    ∃ registry', (op.perform e).2.IncludesOnly registry'
      ∧ ∀ name, registry'.get? name = op.registers name (registry.get? name) := by
  have same {f : Engine} (hset : f.setting = e.setting) : f.IncludesOnly registry := by
    refine ⟨?_, ?_, ?_⟩ <;> rw [hset]
    · exact h.fragments
    · exact h.helpers
    · exact h.codes
  cases op with
  | use p => cases hop
  | hook a => cases hop
  | registerFragment other source =>
    simp only [Operation.perform, Engine.registerFragment, Engine.fragments, h.fragments]
    exact ⟨registry.insert other source, ⟨rfl, h.helpers, h.codes⟩,
      fun name => registry.get?_insert other name source⟩
  | removeFragment other =>
    simp only [Operation.perform, Engine.removeFragment, Engine.fragments, h.fragments]
    exact ⟨registry.erase other, ⟨rfl, h.helpers, h.codes⟩,
      fun name => registry.get?_erase other name⟩
  | registerHelper name code =>
    simp only [Operation.perform, Engine.registerHelper, Engine.helpers, h.helpers]
    exact ⟨registry, h, fun _ => rfl⟩
  | registerLayout name source =>
    simp only [Operation.perform, Engine.registerLayout, Engine.layouts]
    cases e.setting.layouts <;>
      exact ⟨registry, ⟨h.fragments, h.helpers, h.codes⟩, fun _ => rfl⟩
  | addMessages locale messages =>
    simp only [Operation.perform, Engine.addMessages, Engine.catalog]
    cases e.setting.catalog <;>
      exact ⟨registry, ⟨h.fragments, h.helpers, h.codes⟩, fun _ => rfl⟩
  | setLocale locale =>
    simp only [Operation.perform, Engine.setLocale, Engine.catalog]
    cases e.setting.catalog <;>
      exact ⟨registry, ⟨h.fragments, h.helpers, h.codes⟩, fun _ => rfl⟩
  | compile template => exact ⟨registry, same (e.setting_compile template), fun _ => rfl⟩
  | render bound template data =>
    exact ⟨registry, same (e.setting_render bound template data), fun _ => rfl⟩
  | renderValue bound template v =>
    exact ⟨registry, same (e.setting_renderValue bound template v), fun _ => rfl⟩
  | clear => exact ⟨registry, ⟨h.fragments, h.helpers, h.codes⟩, fun _ => rfl⟩

/-- After any operations the registry has the sources that were registered last. -/
theorem after (h : e.IncludesOnly registry) {ops : List Operation}
    (hops : ∀ op ∈ ops, op.isPlain = true) :
    ∃ registry', (e.after ops).IncludesOnly registry' ∧ ∀ name, registry'.get? name
      = ops.foldl (fun before op => op.registers name before) (registry.get? name) := by
  induction ops generalizing e registry with
  | nil => exact ⟨registry, h, fun _ => rfl⟩
  | cons op ops ih =>
    obtain ⟨hop, hops⟩ := List.forall_mem_cons.mp hops
    obtain ⟨next, hnext, hget⟩ := h.perform hop
    obtain ⟨last, hlast, hget'⟩ := ih hnext hops
    refine ⟨last, hlast, fun name => ?_⟩
    rw [hget', hget, List.foldl_cons]

end Engine.IncludesOnly

/-- Routines of such an engine are given nothing but functions of the engine. -/
theorem isPortable_fragments {e : Engine} {registry : Roster String} {byName byValue : Nat}
    (h : e.Steady (inclusionHooks byName byValue) FromPage) (hincludes : e.IncludesOnly registry) :
    ∃ shared, e.setting.IsPortable shared := by
  obtain ⟨identity, hescape⟩ := h.escape
  refine ⟨identity + byName + byValue + 1, ?_, ?_, ?_, ?_⟩
  · rw [hescape]
    show identity < _
    omega
  · rw [h.hooks]
    intro p hp
    have hbyName : byName < identity + byName + byValue + 1 := by omega
    have hbyValue : byValue < identity + byName + byValue + 1 := by omega
    rcases List.mem_cons.mp hp with rfl | hp
    · exact hbyName
    · cases List.mem_singleton.mp hp
      exact hbyValue
  · rw [hincludes.helpers]
    exact nofun
  · rw [hincludes.codes]
    exact nofun

/-! ### Whole renders -/

/-- A template that is kept is not compiled again. -/
theorem compile_kept {e : Engine} {template : String} {routine : Compiled}
    (hversion : e.store.version = e.setting.hooks.version)
    (hcache : e.store.cache.get? template = some routine) : (e.compile template).2 = e := by
  have hfresh : e.setting.freshen e.store = e.store := by
    rw [Setting.freshen, if_pos hversion]
  have hcompile : e.setting.compile template e.store = .ok routine e.store := by
    rw [Kept.compile_eq, hfresh, hcache]
  rw [Engine.compile_ok hcompile]

/-- A fragment that is there is rendered between the texts of the template, if rendering its source
on the engine that keeps the template nests at most nine inclusions. -/
theorem render_registered {e : Engine} {byName byValue : Nat}
    (h : e.Steady (inclusionHooks byName byValue) FromPage) (t : Splice)
    {members : List (String × Json)}
    (hkey : (Roster.ofList members).get? fragmentFunction = none) (bound : Nat) {shared : Nat}
    (hportable : e.setting.IsPortable shared) {source text : String}
    (hsource : (e.setting.fragments.getD .empty).get? t.name.text = some source)
    (hnests : (e.compile t.print).2.NestsWithin 9 (bound + 5) source (.object members))
    (hok : ((e.compile t.print).2.render (bound + 5) (some source) (.object members)).1
      = .ok text) :
    (e.render (bound + 5) (some t.print) (.object members)).1 = .ok (t.around text) := by
  have hset : (e.compile t.print).2.setting = e.setting := e.setting_compile t.print
  have hheap : (e.compile t.print).2.store.heap = e.store.heap := by
    obtain ⟨routine, after, hcompile, -, hheap⟩ := compile_splice h t
    rw [Engine.compile_ok hcompile]
    exact hheap
  rw [← hset] at hsource
  obtain ⟨after, hinclude⟩ := includeFragment_of_render hsource hnests hok
  rw [hset, hheap] at hinclude
  exact render_of_brings h t hkey bound (r := .ok text) fun heap hsame =>
    brings_includeFragment hportable rfl hinclude heap hsame

/-- **An inclusion is exactly a nested render.**  On every engine on which fragments were installed
and nothing else, whatever it was used for since, a template that includes one fragment between two
texts is rendered as the text that the source of the fragment is rendered as, between the two texts,
if that nests at most nine inclusions; the source is rendered on the engine that keeps the including
template, which is the engine itself if that was kept.  If nothing is registered under the name,
rendering fails and says so. -/
theorem render_splice (cap : Nat) {ops : List Operation} (hops : ∀ op ∈ ops, op.isPlain = true)
    (t : Splice) {members : List (String × Json)}
    (hmembers : ∀ member ∈ members,
      member.1 ∉ [fragmentFunction, chosenFragmentFunction, escapeName])
    {bound : Nat} (hbound : 5 ≤ bound) :
    let e := ((Engine.create cap).use .fragments).after ops
    (∀ source text, lastSource t.name.text ops = some source → source ≠ "" →
        ((e.compile t.print).2.render bound (some source) (.object members)).1 = .ok text →
        (e.compile t.print).2.NestsWithin 9 bound source (.object members) →
        (e.render bound (some t.print) (.object members)).1 = .ok (t.around text))
      ∧ (lastSource t.name.text ops = none →
        ∃ f, (e.render bound (some t.print) (.object members)).1 = .error (.render f)
          ∧ f.message = "Partial \"" ++ t.name.text ++ "\" not found")
      ∧ ∀ routine, e.store.version = e.setting.hooks.version →
        e.store.cache.get? t.print = some routine → (e.compile t.print).2 = e := by
  intro e
  obtain ⟨bound, rfl⟩ : ∃ b, bound = b + 5 := ⟨bound - 5, by omega⟩
  obtain ⟨byName, byValue, hsteady⟩ := steady_fragments {} #[] cap FromPage
  have h : e.Steady (inclusionHooks byName byValue) FromPage :=
    hsteady.after (fun s hhooks => fromPage_of_new hhooks) hops
  have hnew : ((Engine.create cap).use .fragments).IncludesOnly .empty := ⟨rfl, rfl, rfl⟩
  obtain ⟨registry, hincludes, hget⟩ : ∃ registry, e.IncludesOnly registry ∧ _ := hnew.after hops
  have hregistry (name : String) :
      (e.setting.fragments.getD .empty).get? name = lastSource name ops := by
    rw [hincludes.fragments]
    exact hget name
  have hkey : (Roster.ofList members).get? fragmentFunction = none :=
    get?_ofList_eq_none fun member hmember heq =>
      hmembers member hmember (heq ▸ List.mem_cons_self)
  clear_value e
  refine ⟨fun source text hsource _ hok hnests => ?_, fun hnone => ?_, fun routine => ?_⟩
  · obtain ⟨shared, hportable⟩ := isPortable_fragments h hincludes
    exact render_registered h t hkey bound hportable ((hregistry _).trans hsource) hnests hok
  · exact ⟨_, render_unregistered h t hkey bound ((hregistry _).trans hnone), rfl⟩
  · exact compile_kept

/-- A template that includes a fragment whose name has a bracket and a quote sign in it. -/
def bracketed : Splice where
  before := .less
  name :=
    { chars := ['a', ']', '"', 'b']
      nonempty := nofun
      front := by
        rintro c ⟨⟩
        decide
      back := by
        rintro c ⟨⟩
        decide
      noClose := by decide
      outright := by decide }
  after := ['>', '[']
  noOpening := by decide

/-- The fragment is registered twice. -/
def bracketedOps : List Operation :=
  [.registerFragment bracketed.name.text "old", .registerFragment bracketed.name.text "[[= x ]]"]

theorem render_splice_bracketed :
    bracketed.print = "<[[> a]\"b ]]>["
      ∧ ((((Engine.create 2).use .fragments).after bracketedOps).render 99 (some bracketed.print)
          (.object [("x", .text "&")])).1 = .ok "<&amp;>[" := by
  have hops : ∀ op ∈ bracketedOps, op.isPlain = true := by decide
  have hmembers : ∀ member ∈ [("x", Json.text "&")],
      member.1 ∉ [fragmentFunction, chosenFragmentFunction, escapeName] := by decide +kernel
  have hdepth : (((((Engine.create 2).use .fragments).after bracketedOps).compile
      bracketed.print).2.renderBeyond 9 99 "[[= x ]]" (.object [("x", .text "&")]) fun _ =>
        Run.fail (.fragmentDepth "")).1 = .ok "&amp;" := by
    decide +kernel
  have hnests := nestsWithin_of_ok (by decide) rfl hdepth
  have hrender := render_splice 2 hops bracketed hmembers (by decide : 5 ≤ 99)
  have haround : bracketed.around "&amp;" = "<&amp;>[" := by decide
  refine ⟨by decide, ?_⟩
  rw [← haround]
  exact hrender.1 "[[= x ]]" "&amp;" (by decide) (by decide) ((hnests _).symm.trans hdepth) hnests

/-- A fragment that includes the same fragment before and after another one. -/
def crowded : Splice where
  before := .empty
  name :=
    { chars := ['s']
      nonempty := nofun
      front := by
        rintro c ⟨⟩
        decide
      back := by
        rintro c ⟨⟩
        decide
      noClose := by decide
      outright := by decide }
  after := []
  noOpening := TextRun.empty.noOpening

/-- The fragments, and a render of the text of the first one. -/
def crowdedOps : List Operation :=
  [.registerFragment "p" "[[-o===(o=()=>1)]]", .registerFragment "q" "q",
    .registerFragment "s" "[[>p]][[>q]][[>p]]",
    .render 99 (some "[[-o===(o=()=>1)]]") (.object [("o", .null)])]

/-- **What an inclusion pushes out.**  On an engine that keeps two routines, the including template
takes the place of the routine of a fragment, which is then compiled in another order than without
the template; so the fragment takes a function of its own for another one. -/
theorem splice_mistaken :
    let e := ((Engine.create 2).use .fragments).after crowdedOps
    crowded.print = "[[> s ]]" ∧ (∀ op ∈ crowdedOps, op.isPlain = true)
      ∧ lastSource crowded.name.text crowdedOps = some "[[>p]][[>q]][[>p]]"
      ∧ (e.render 99 (some "[[>p]][[>q]][[>p]]") (.object [("o", .null)])).1 = .ok "falseqfalse"
      ∧ e.NestsWithin 9 99 "[[>p]][[>q]][[>p]]" (.object [("o", .null)])
      ∧ crowded.around "falseqfalse" = "falseqfalse"
      ∧ (e.render 99 (some "[[> s ]]") (.object [("o", .null)])).1 = .ok "falseqtrue" := by
  intro e
  have hdepth : (e.renderBeyond 9 99 "[[>p]][[>q]][[>p]]" (.object [("o", .null)]) fun _ =>
      Run.fail (.fragmentDepth "")).1 = .ok "falseqfalse" := by
    decide +kernel
  have hnests : e.NestsWithin 9 99 "[[>p]][[>q]][[>p]]" (.object [("o", .null)]) :=
    nestsWithin_of_ok (by decide) rfl hdepth
  exact ⟨by decide, by decide, by decide, (hnests _).symm.trans hdepth, hnests, by decide,
    by decide +kernel⟩

end Stencil
