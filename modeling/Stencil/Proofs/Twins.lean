import Stencil.Proofs.Injection
import Stencil.Proofs.LikeRendering
import Stencil.Proofs.Pairing
import Stencil.Proofs.Portable

/-!
# Twin engines

Two engines that compile the same templates one after the other keep routines with the same numbers,
and if the sources are the same, with the same statements.  What such routines are given may be bound
in another order, by native functions that were made by other acts, and on heaps in which everything
lies elsewhere: as long as each name that the routines use has the same value, they do the same.

* `Helper.IsBlind` — helpers that see nothing but their arguments, such as those that work with JSON
  values;
* `InStep`, `InStep.compile` — stores of engines that compiled the same templates, and compiling one
  more;
* `settles_invoke_twin` — routines that are twins come to the same if they do so wherever their
  parameters are bound;
* `Twins`, `Twins.renderValue` — engines that render the same.
-/

namespace Stencil

open Routine Likeness

/-! ### Helpers -/

/-- A helper that makes the same of arguments that are the same, wherever these lie, or fails
alike. -/
def Helper.IsBlind (code : Helper) : Prop :=
  ∀ (hidden : String → Prop) (w : Pairing) (args args' : List Value) (h h' : Heap),
    (paired hidden).Rows w args args' → Routine.Paired hidden w h h' → ∃ w', w ≤ w'
      ∧ Routine.Paired hidden w' (code args h).2 (code args' h').2
      ∧ ((∃ v v', (code args h).1 = .ok v ∧ (code args' h').1 = .ok v'
          ∧ (paired hidden).Values w' v v')
        ∨ ∃ f, (code args h).1 = .error f ∧ (code args' h').1 = .error f)

/-- What is computed from JSON values does not depend on where these lie. -/
theorem isBlind_jsonHelper (f : List (Option (Option Json)) → Except Failure Json) :
    Helper.IsBlind (jsonHelper f) := by
  intro hidden w args args' h h' hargs hp
  have hsame : args.map h.toJson = args'.map h'.toJson := by
    induction hargs with
    | nil => rfl
    | cons hv _ ih => rw [List.map_cons, List.map_cons, hp.toJson_eq hv, ih]
  simp only [jsonHelper, hsame]
  cases f (args'.map h'.toJson) with
  | ok json =>
    obtain ⟨w', hw, hv, hp'⟩ := Settles.ofJson_rel (L := pairing hidden fun _ _ => True) hp json
    exact ⟨w', hw, hp', .inl ⟨_, _, rfl, rfl, hv⟩⟩
  | error e => exact ⟨w, le_rfl, hp, .inr ⟨e, rfl, rfl⟩⟩

/-! ### Stores in step -/

namespace Cache

/-- Caches that hold the same names in the same order, with entries that are related. -/
structure Alike {α : Type} (R : α → α → Prop) (c c' : Cache α) : Prop where
  bound : c.bound = c'.bound
  entries : List.Forall₂ (fun e e' => e.1 = e'.1 ∧ R e.2 e'.2) c.entries.entries c'.entries.entries

namespace Alike

variable {α : Type} {R : α → α → Prop} {c c' : Cache α} (h : c.Alike R c')
include h

theorem get? (name : String) : Option.Rel R (c.get? name) (c'.get? name) :=
  forall₂_lookupName h.entries name

theorem clear : c.clear.Alike R c'.clear := ⟨h.bound, .nil⟩

theorem roomFor (name : String) :
    List.Forall₂ (fun e e' => e.1 = e'.1 ∧ R e.2 e'.2) (c.roomFor name).entries
      (c'.roomFor name).entries := by
  have hcontains : c.contains name = c'.contains name := by
    have hrel := h.get? name
    show (c.get? name).isSome = (c'.get? name).isSome
    generalize c.get? name = a at hrel ⊢
    generalize c'.get? name = a' at hrel ⊢
    cases hrel <;> rfl
  have hsize : c.size = c'.size := h.entries.length_eq
  rw [Cache.roomFor, Cache.roomFor, hcontains, hsize, h.bound]
  split
  · exact h.entries
  · split
    · exact List.forall₂_drop 1 h.entries
    · exact h.entries

theorem insert (name : String) {a a' : α} (ha : R a a') :
    (c.insert name a).Alike R (c'.insert name a') :=
  ⟨h.bound, forall₂_putName (h.roomFor name) name ha⟩

end Alike

end Cache

/-- Stores of engines that compiled the same templates.  Each keeps what its templates become. -/
structure InStep (s s' : Setting) (a b : Store) : Prop where
  version : a.version = b.version
  compiled : a.compiled = b.compiled
  cache : a.cache.Alike (fun r r' => r.number = r'.number) b.cache
  left : Kept s (New s) a
  right : Kept s' (New s') b

/-- Routines of a template on two engines, with one number. -/
structure Twin (s s' : Setting) (template : String) (r r' : Compiled) : Prop where
  number : r.number = r'.number
  left : New s template r
  right : New s' template r'

/-- The statements of a source do not depend on the parameters for which it is read. -/
theorem parseProgram_params (params params' : List String) (source : String) :
    parseProgram params' source
      = (parseProgram params source).map fun p => ⟨params', p.body⟩ := by
  rw [parseProgram, parseProgram]
  split
  · rfl
  · rw [parseTokens, parseTokens]
    cases (topStatements (callBound _)).run ⟨_, _⟩ <;> rfl

/-- Twins have the same statements if their sources are the same. -/
theorem Twin.body_eq {s s' : Setting} {template : String} {r r' : Compiled}
    (h : Twin s s' template r r') (hsource : s.source template = s'.source template) :
    r.program.body = r'.program.body := by
  obtain ⟨-, ⟨p, _, hp, rfl⟩, p', _, hp', rfl⟩ := h
  rw [← hsource, parseProgram_params s.params, hp] at hp'
  cases hp'
  rfl

/-- Stores without routines. -/
theorem InStep.of_create {s s' : Setting} {a b : Store} {bound : Nat}
    (hversion : a.version = b.version) (hcompiled : a.compiled = b.compiled)
    (ha : a.cache = Cache.create bound) (hb : b.cache = Cache.create bound)
    (hs : a.version ≤ s.hooks.version) (hs' : b.version ≤ s'.hooks.version) :
    InStep s s' a b where
  version := hversion
  compiled := hcompiled
  cache := by
    rw [ha, hb]
    exact ⟨rfl, .nil⟩
  left := .of_create bound ha hs
  right := .of_create bound hb hs'

namespace InStep

variable {s s' : Setting} {a b : Store} (h : InStep s s' a b)
include h

/-- The heaps have nothing to do with it. -/
theorem change (heap heap' : Heap) :
    InStep s s' { a with heap := heap } { b with heap := heap' } :=
  ⟨h.version, h.compiled, h.cache, h.left.change heap, h.right.change heap'⟩

theorem freshen (hversion : s.hooks.version = s'.hooks.version) :
    InStep s s' (s.freshen a) (s'.freshen b) := by
  have hleft := h.left.freshen.1
  have hright := h.right.freshen.1
  have hcases := h.version
  rw [Setting.freshen, Setting.freshen] at *
  rw [← hversion, ← h.version] at *
  split
  · rename_i heq
    rw [if_pos heq] at *
    exact h
  · rename_i hne
    rw [if_neg hne] at *
    exact ⟨rfl, h.compiled, h.cache.clear, hleft, hright⟩

/-- What both stores keep of a template are twins. -/
theorem cached (hnow : a.version = s.hooks.version) (hnow' : b.version = s'.hooks.version)
    (template : String) :
    Option.Rel (Twin s s' template) (a.cache.get? template) (b.cache.get? template) := by
  have hget := h.cache.get? template
  have hleft := h.left.holds hnow template
  have hright := h.right.holds hnow' template
  generalize a.cache.get? template = kept at hget hleft ⊢
  generalize b.cache.get? template = kept' at hget hright ⊢
  cases hget with
  | none => exact .none
  | some hnumber => exact .some ⟨hnumber, hleft _ rfl, hright _ rfl⟩

/-- Both stores keep routines that are twins. -/
theorem insert {template : String} {r r' : Compiled} (hr : Twin s s' template r r') (n : Nat) :
    InStep s s' { a with cache := a.cache.insert template r, compiled := n }
      { b with cache := b.cache.insert template r', compiled := n } where
  version := h.version
  compiled := rfl
  cache := h.cache.insert template hr.number
  left := h.left.insert hr.left n
  right := h.right.insert hr.right n

/-- **Compiling on both engines** gives routines that are twins, or fails in the same way, if the
sources are the same. -/
theorem compile (hversion : s.hooks.version = s'.hooks.version)
    (hnumbering : s.numbering = s'.numbering) {template : String}
    (hsource : s.source template = s'.source template) :
    ∃ a' b', InStep s s' a' b' ∧ a'.heap = a.heap ∧ b'.heap = b.heap
      ∧ ((∃ r r', s.compile template a = .ok r a' ∧ s'.compile template b = .ok r' b'
          ∧ Twin s s' template r r')
        ∨ ∃ stop, s.compile template a = .error stop a'
          ∧ s'.compile template b = .error stop b') := by
  have hfresh := h.freshen hversion
  have hnow := h.left.freshen.2
  have hheap := Kept.heap_freshen s a
  have hheap' := Kept.heap_freshen s' b
  rw [Kept.compile_eq, Kept.compile_eq]
  generalize s.freshen a = c at *
  generalize s'.freshen b = d at *
  have hnow' : d.version = s'.hooks.version := hfresh.version.symm.trans (hnow.trans hversion)
  have hcached := hfresh.cached hnow hnow' template
  generalize c.cache.get? template = kept at hcached ⊢
  generalize d.cache.get? template = kept' at hcached ⊢
  cases hcached with
  | some hr => exact ⟨c, d, hfresh, hheap, hheap', .inl ⟨_, _, rfl, rfl, hr⟩⟩
  | none =>
    have hparse' := parseProgram_params s.params s'.params (s.source template)
    cases hparse : parseProgram s.params (s.source template) with
    | error stop =>
      rw [hparse] at hparse'
      rw [← hsource, hparse']
      exact ⟨c, d, hfresh, hheap, hheap', .inr ⟨stop, rfl, rfl⟩⟩
    | ok p =>
      rw [hparse] at hparse'
      have hr : Twin s s' template ⟨s.numbering (s.source template) c.compiled, p.numbered⟩
          ⟨s.numbering (s.source template) c.compiled, Program.numbered ⟨s'.params, p.body⟩⟩ :=
        ⟨rfl, ⟨p, c.compiled, hparse, rfl⟩,
          ⟨s'.params, p.body⟩, c.compiled, hsource ▸ hparse', by rw [← hnumbering, ← hsource]⟩
      rw [← hsource, hparse', ← hnumbering, ← hfresh.compiled]
      exact ⟨_, _, hfresh.insert hr (c.compiled + 1), hheap, hheap', .inl ⟨_, _, rfl, rfl, hr⟩⟩

end InStep

/-! ### Runs in step -/

section Runs

variable {hidden : String → Prop} {s s' : Setting} {w : Pairing}

/-- What is taken as the same in stores of two engines that compile the same templates. -/
def inStep (hidden : String → Prop) (s s' : Setting) : Likeness := pairing hidden (InStep s s')

instance : (inStep hidden s s').Lawful := inferInstanceAs (pairing hidden (InStep s s')).Lawful

theorem inStep_excused (f : Failure) : ¬ (inStep hidden s s').excused f := id

/-- Templates with the same sources are compiled alike while routines run. -/
theorem settles_compileNested_twin (hversion : s.hooks.version = s'.hooks.version)
    (hnumbering : s.numbering = s'.numbering) {template : String}
    (hsource : s.source template = s'.source template) :
    (inStep hidden s s').Settles (pure ()) w (fun _ => Twin s s' template)
      (fun _ => s.compileNested template) (fun _ => s'.compileNested template) := by
  refine Settles.of_outcome fun w' _ a b hab => ?_
  obtain ⟨a', b', hstep, hheapa, hheapb, hr⟩ :=
    (hab.2 a.heap b.heap).compile hversion hnumbering hsource
  have hstores : (inStep hidden s s').stores w' a' b' := by
    refine ⟨?_, fun h h' => hstep.change h h'⟩
    rw [hheapa, hheapb]
    exact hab.1
  simp only [Setting.compileNested]
  rcases hr with ⟨r, r', ha, hb, hr⟩ | ⟨stop, ha, hb⟩
  · rw [ha, hb]
    exact .ok le_rfl hstores hr
  · rw [ha, hb]
    cases stop with
    | fault e => exact .failed _ le_rfl hstores
    | exhausted => exact .endless le_rfl hstores trivial

/-- What routines ask for is answered alike if fragments are rendered alike. -/
theorem serves_twin (hcatalog : s.catalog = s'.catalog) (hcodes : s.codes = s'.codes)
    (hblind : ∀ code ∈ s.codes, code.IsBlind) {fragment fragment' : String → Run String}
    (hfragment : ∀ w', w ≤ w' → ∀ name, (inStep hidden s s').Settles (pure ()) w'
      (inStep hidden s s').Same (fun _ => fragment name) (fun _ => fragment' name)) :
    (inStep hidden s s').Serves (pure ()) w (fun _ : Unit => s.perform fragment)
      (fun _ => s'.perform fragment') := by
  refine Serves.perform hcatalog hfragment (fun w' hw name => ?_)
    fun w' _ slot args args' hargs => ?_
  · exact Settles.hidingFailure (fun f hf => absurd hf (inStep_excused f)) (hfragment w' hw name)
  · simp only [Setting.perform, ← hcodes]
    cases hcode : s.codes[slot]? with
    | none => exact .value .undefined
    | some code =>
      refine .attempt fun w₁ hw₁ h h' hp => ?_
      exact hblind code (Array.mem_of_getElem? hcode) hidden w₁ args args' h h'
        (Kinship.Rows.mono (K := paired hidden) hw₁ hargs) hp

/-! ### Bound parameters -/

/-- Values that are the same under each name when they are bound to parameters. -/
structure BoundAlike (hidden : String → Prop) (names names' : List String) (w : Pairing)
    (vs vs' : List Value) : Prop where
  length_eq : vs.length = vs'.length
  under (name : String) : Option.Rel (PairedBindings hidden w)
    ((bindAll .empty names vs).get? name) ((bindAll .empty names' vs').get? name)

/-- Values that are the same one by one are so under each name. -/
theorem BoundAlike.of_rows {names : List String} {vs vs' : List Value}
    (h : (paired hidden).Rows w vs vs') : BoundAlike hidden names names w vs vs' := by
  refine ⟨h.length_eq, fun name => ?_⟩
  induction names generalizing vs vs' with
  | nil => exact .none
  | cons key names ih =>
    have step {v v' : Value} {vs vs' : List Value} (hv : (paired hidden).Values w v v')
        (hvs : (paired hidden).Rows w vs vs') : Option.Rel (PairedBindings hidden w)
          ((bindAll (Roster.empty.insert key ⟨v, true⟩) names vs).get? name)
          ((bindAll (Roster.empty.insert key ⟨v', true⟩) names vs').get? name) := by
      rw [get?_bindAll, get?_bindAll _ names vs']
      have hrest := ih hvs
      generalize (bindAll .empty names vs).get? name = b at hrest ⊢
      generalize (bindAll .empty names vs').get? name = b' at hrest ⊢
      cases hrest with
      | some hb => exact .some hb
      | none =>
        rw [Option.none_or, Option.none_or, Roster.get?_insert, Roster.get?_insert]
        split
        · exact .some ⟨hv, rfl⟩
        · exact .none
    cases h with
    | nil => exact step .undefined .nil
    | cons hv hvs => exact step hv hvs

/-- Values that are the same under each name are so behind the data and the function that escapes.
The data may differ where their name may. -/
theorem BoundAlike.behind {names names' : List String} {vs vs' : List Value}
    (h : BoundAlike hidden names names' w vs vs') {w' : Pairing} (hw : w ≤ w')
    {escape escape' : Value} (hescape : (paired hidden).Values w' escape escape')
    {differing : String → Prop} {data data' : Value}
    (hdata : ¬ differing Template.dataName → (paired hidden).Values w' data data') {name : String}
    (hname : ¬ differing name) :
    Option.Rel (PairedBindings hidden w')
      ((bindAll .empty (Template.dataName :: Template.escapeName :: names)
        (data :: escape :: vs)).get? name)
      ((bindAll .empty (Template.dataName :: Template.escapeName :: names')
        (data' :: escape' :: vs')).get? name) := by
  show Option.Rel _ ((bindAll ((Roster.empty.insert _ _).insert _ _) names vs).get? name)
    ((bindAll ((Roster.empty.insert _ _).insert _ _) names' vs').get? name)
  rw [get?_bindAll, get?_bindAll _ names']
  have hunder := h.under name
  generalize (bindAll .empty names vs).get? name = a at hunder ⊢
  generalize (bindAll .empty names' vs').get? name = a' at hunder ⊢
  cases hunder with
  | some hb => exact .some (hb.mono hidden hw)
  | none =>
    rw [Option.none_or, Option.none_or, Roster.get?_insert, Roster.get?_insert,
      Roster.get?_insert, Roster.get?_insert]
    split
    · exact .some ⟨hescape, rfl⟩
    · split
      · rename_i hdataName
        exact .some ⟨hdata (hdataName ▸ hname), rfl⟩
      · exact .none

/-- A routine comes to the same on both engines if it does so wherever its parameters are bound. -/
theorem outcome_run {P : Pairing → Value → Value → Prop} {t t' : Store}
    (hs : (inStep hidden s s').stores w t t') {p p' : Program} {args args' : List Value}
    (differing : String → Prop)
    (hbound : ∀ name, ¬ differing name → Option.Rel (PairedBindings hidden w)
      ((bindAll .empty p.params args).get? name) ((bindAll .empty p'.params args').get? name))
    {bound : Nat} {around around' : Surroundings}
    (hrun : ∀ w', w ≤ w' → ∀ place place' u u', (inStep hidden s s').stores w' u u' →
      w'.frames place place' → (∀ name, w'.covered place name → differing name) →
      u.heap.frame place = bindAll .empty p.params args →
      u'.heap.frame place' = bindAll .empty p'.params args' →
      (inStep hidden s s').Outcome w' P (p.runBound bound around [.locals place] u)
        (p'.runBound bound around' [.locals place'] u')) :
    (inStep hidden s s').Outcome w P (p.run bound around args t)
      (p'.run bound around' args' t') := by
  obtain ⟨w', hw, hframes, hpaired, hcovered, -⟩ :=
    hs.1.pushFrame differing (fun _ => False) hbound nofun
  rw [p.run_eq, p'.run_eq, Heap.declareAll_newFrame, Heap.declareAll_newFrame]
  have hstart := hrun w' hw t.heap.frames.size t'.heap.frames.size
    { t with heap := t.heap.pushFrame (bindAll .empty p.params args) }
    { t' with heap := t'.heap.pushFrame (bindAll .empty p'.params args') } ⟨hpaired, hs.2⟩ hframes
    hcovered ((Heap.frame_pushFrame ..).trans (if_pos rfl))
    ((Heap.frame_pushFrame ..).trans (if_pos rfl))
  exact hstart.imp hw fun _ _ _ _ h => h

/-- **Twins are invoked alike** if they come to the same wherever their parameters are bound.  The
data of the two may differ. -/
theorem settles_invoke_twin {template : String} {routine routine' : Compiled}
    (htwin : Twin s s' template routine routine')
    (hlength : s.hooks.params.length = s'.hooks.params.length)
    (hescape : (paired hidden).Values w s.escape s'.escape)
    (hprovided : (inStep hidden s s').Settles (pure ()) w
      (BoundAlike hidden s.hooks.params s'.hooks.params) (fun _ => s.provideAll)
      fun _ => s'.provideAll)
    (differing : String → Prop) {data data' : Value}
    (hdata : ¬ differing Template.dataName → (paired hidden).Values w data data') {bound : Nat}
    {fragment fragment' : String → Run String}
    (hrun : ∀ w', w ≤ w' → ∀ vs vs' place place' u u', (inStep hidden s s').stores w' u u' →
      w'.frames place place' → (∀ name, w'.covered place name → differing name) →
      u.heap.frame place = bindAll .empty s.params (data :: s.escape :: vs) →
      u'.heap.frame place' = bindAll .empty s'.params (data' :: s'.escape :: vs') →
      (inStep hidden s s').Outcome w' (inStep hidden s s').Values
        (routine.program.runBound bound ⟨s.perform fragment, routine.number, callLimit⟩
          [.locals place] u)
        (routine'.program.runBound bound ⟨s'.perform fragment', routine'.number, callLimit⟩
          [.locals place'] u')) :
    (inStep hidden s s').Settles (pure ()) w (inStep hidden s s').Same
      (fun _ : Unit => s.invoke bound fragment routine data)
      (fun _ => s'.invoke bound fragment' routine' data') := by
  have hparams : routine.program.params = s.params := takesParams_of_new htwin.left
  have hparams' : routine'.program.params = s'.params := takesParams_of_new htwin.right
  refine hprovided.bind fun w₁ hw₁ vs vs' hvs => ?_
  have harity : routine.arity = routine'.arity := by
    show routine.program.params.length = routine'.program.params.length
    rw [hparams, hparams', Setting.params, Setting.params, List.length_append, List.length_append,
      hlength]
  have hargs : (data :: s.escape :: vs).length = (data' :: s'.escape :: vs').length :=
    congrArg (· + 1 + 1) hvs.length_eq
  dsimp only
  rw [hargs, harity]
  split
  · exact .fail _
  refine Settles.bind (P := (inStep hidden s s').Values) ?_ fun w₂ _ v v' hv => .textOf hv
  refine Settles.of_outcome fun w₂ hw₂ t t' ht => ?_
  refine outcome_run ht differing (fun name hname => ?_)
    fun w₃ hw₃ place place' u u' hu hframes hcovered hframe hframe' => ?_
  · have hlater := hw₁.trans hw₂
    rw [hparams, hparams']
    exact hvs.behind hw₂ (hescape.mono (K := paired hidden) hlater)
      (fun h => (hdata h).mono (K := paired hidden) hlater) hname
  · rw [hparams] at hframe
    rw [hparams'] at hframe'
    exact hrun w₃ (hw₁.trans (hw₂.trans hw₃)) vs vs' place place' u u' hu hframes hcovered hframe
      hframe'

end Runs

/-! ### Engines that render the same -/

/-- Settings with the same fragments, and under which some templates have the same sources, the
fragments among them. -/
structure Twins (known : String → Prop) (s s' : Setting) : Prop where
  version : s.hooks.version = s'.hooks.version
  numbering : s.numbering = s'.numbering
  fragments : s.fragments = s'.fragments
  source {template : String} : known template → s.source template = s'.source template
  known {name template : String} : (s.fragments.getD .empty).get? name = some template →
    known template

/-- **Twin engines render the same** if the routines of their templates are invoked alike, with data
that are related in some way that lasts. -/
theorem Twins.renderValue {known : String → Prop} {e e' : Engine}
    (h : Twins known e.setting e'.setting) {hidden : String → Prop} {base : Pairing}
    (hstores : (inStep hidden e.setting e'.setting).stores base e.store e'.store)
    {D : Pairing → Value → Value → Prop}
    (hD : ∀ {w w' : Pairing} {v v' : Value}, w ≤ w' → D w v v' → D w' v v') (bound : Nat)
    (hinvoke : ∀ w, base ≤ w → ∀ fragment fragment' : String → Run String,
      (∀ w', w ≤ w' → ∀ name, (inStep hidden e.setting e'.setting).Settles (pure ()) w'
        (inStep hidden e.setting e'.setting).Same (fun _ : Unit => fragment name)
        (fun _ => fragment' name)) →
      ∀ template routine routine' data data', known template →
        Twin e.setting e'.setting template routine routine' → D w data data' →
        (inStep hidden e.setting e'.setting).Settles (pure ()) w
          (inStep hidden e.setting e'.setting).Same
          (fun _ : Unit => e.setting.invoke bound fragment routine data)
          (fun _ => e'.setting.invoke bound fragment' routine' data'))
    {template : Option String} (htemplate : ∀ t, template = some t → known t) {data data' : Value}
    (hdata : D base data data') :
    (e.renderValue bound template data).1 = (e'.renderValue bound template data').1 := by
  obtain ⟨s, a⟩ := e
  obtain ⟨s', b⟩ := e'
  dsimp only at *
  cases template with
  | none => rfl
  | some template =>
    have hknown := htemplate template rfl
    simp only [Engine.renderValue]
    split
    · rfl
    obtain ⟨a', b', hstep, hheapa, hheapb, hr⟩ :=
      (hstores.2 a.heap b.heap).compile h.version h.numbering (h.source hknown)
    have hstores' : (inStep hidden s s').stores base a' b' := by
      refine ⟨?_, fun h h' => hstep.change h h'⟩
      rw [hheapa, hheapb]
      exact hstores.1
    rcases hr with ⟨r, r', ha, hb, hr⟩ | ⟨stop, ha, hb⟩
    · rw [Engine.compile_ok (e := ⟨s, a⟩) ha, Engine.compile_ok (e := ⟨s', b⟩) hb]
      dsimp only
      have hfragment (w : Pairing) (hw : base ≤ w) (name : String) :=
        Settles.includeFragment (L := inStep hidden s s') (F := pure ()) (D := D) hD h.fragments
          (fun w _ _ template htemplate => settles_compileNested_twin h.version h.numbering
            (h.source (h.known htemplate)))
          bound (fun w hw fragment fragment' hfragment _ template r r' _ _ htemplate hr hdata =>
            hinvoke w hw fragment fragment' hfragment template r r' _ _ (h.known htemplate) hr
              hdata)
          nestingLimit hw (hD hw hdata) name
      have hrun := hinvoke base le_rfl _ _ hfragment template r r' data data' hknown hr hdata
      have hanswer := (hrun.performRun inStep_excused (e := ⟨s, a'⟩) (f := ⟨s', b'⟩) hstores').1
      simp only [Setting.renderTop]
      generalize Engine.performRun ⟨s, a'⟩ _ = ra at *
      generalize Engine.performRun ⟨s', b'⟩ _ = rb at *
      obtain ⟨ra, _, _⟩ := ra
      obtain ⟨rb, _, _⟩ := rb
      obtain rfl : ra = rb := hanswer
      cases ra <;> rfl
    · rw [Engine.compile_error (e := ⟨s, a⟩) ha, Engine.compile_error (e := ⟨s', b⟩) hb]

end Stencil
