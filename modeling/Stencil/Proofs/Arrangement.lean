import Mathlib.Data.List.Permutation
import Stencil.Proofs.Facilities
import Stencil.Proofs.Segments
import Stencil.Proofs.Twins

/-!
# Facilities in another order

Engines with the same facilities, installed in different orders, and with the same registrations
afterwards render the same, if in their templates it does not matter which shorthand is written out
first.

* `SameActs` — the acts that made the native functions of the same parameters;
* `lookupName_arranged`, `settles_provideAll_arranged` — each parameter has the same value, wherever
  it stands;
* `Operation.IsRegistration`, `Arranged`, `Arranged.perform` — registrations, and engines that agree
  in what they know while these go on;
* `Arranged.settles_invoke` — such engines invoke routines of one source alike;
* `furnished`, `render_furnished` — engines with all facilities.
-/

namespace Stencil

open Routine Likeness Template

/-! ### Parameters in another order -/

/-- No name is hidden. -/
def nothingHidden (_ : String) : Prop := False

section Parameters

variable {ps ps' : List Parameter}

/-- The acts that made the native functions of the same parameters, and the function that
escapes. -/
def SameActs (ps ps' : List Parameter) (i i' : Nat) : Prop :=
  i = 0 ∧ i' = 0 ∨ ∃ name code,
    lookupName name (numberedFrom 1 ps) = some (.constant (.native name code i))
      ∧ lookupName name (numberedFrom 1 ps') = some (.constant (.native name code i'))

theorem number_le_of_lookupName {name : String} {code : Native} {i : Nat}
    (h : lookupName name (numberedFrom 1 ps) = some (.constant (.native name code i))) :
    1 ≤ i ∧ i < 1 + natives ps := by
  have hrel := lookupName_numberedFrom 1 ps name
  rw [h] at hrel
  generalize lookupName name ps = a at hrel
  cases hrel with
  | some hp =>
    cases hp with
    | native _ hlo hhi => exact ⟨hlo, hhi⟩

theorem SameActs.lt {i i' : Nat} (h : SameActs ps ps' i i') :
    i < 1 + natives ps ∧ i' < 1 + natives ps' := by
  rcases h with ⟨rfl, rfl⟩ | ⟨name, code, h, h'⟩
  · omega
  · exact ⟨(number_le_of_lookupName h).2, (number_le_of_lookupName h').2⟩

theorem oneToOne_sameActs (ps ps' : List Parameter) : OneToOne (SameActs ps ps') := by
  -- The escaping function has a number of its own.
  have zero {name : String} {code : Native} {i i' : Nat}
      (h : lookupName name (numberedFrom 1 ps) = some (.constant (.native name code i)))
      (h' : lookupName name (numberedFrom 1 ps') = some (.constant (.native name code i'))) :
      i ≠ 0 ∧ i' ≠ 0 := by
    have := number_le_of_lookupName h
    have := number_le_of_lookupName h'
    omega
  rintro p p' q q' (⟨rfl, rfl⟩ | ⟨name, code, hp, hp'⟩) (⟨rfl, rfl⟩ | ⟨name₂, code₂, hq, hq'⟩)
  · exact ⟨fun _ => rfl, fun _ => rfl⟩
  · exact ⟨fun h => absurd h.symm (zero hq hq').1, fun h => absurd h.symm (zero hq hq').2⟩
  · exact ⟨fun h => absurd h (zero hp hp').1, fun h => absurd h (zero hp hp').2⟩
  · constructor
    · rintro rfl
      obtain rfl := eq_of_lookupName_numberedFrom hp hq
      rw [hp'] at hq'
      cases hq'
      rfl
    · rintro rfl
      obtain rfl := eq_of_lookupName_numberedFrom hp' hq'
      rw [hp] at hq
      cases hq
      rfl

/-- **Each parameter has the same provider**, wherever it stands, but that native functions have
other numbers. -/
theorem lookupName_arranged (hnodup : (ps.map Prod.fst).Nodup) (hperm : ps.Perm ps')
    (name : String) :
    Option.Rel (fun p p' => p = .helpers ∧ p' = .helpers ∨ ∃ code i i',
        p = .constant (.native name code i) ∧ p' = .constant (.native name code i')
          ∧ SameActs ps ps' i i')
      (lookupName name (numberedFrom 1 ps)) (lookupName name (numberedFrom 1 ps')) := by
  have hrel := lookupName_numberedFrom 1 ps name
  have hrel' := lookupName_numberedFrom 1 ps' name
  rw [← lookupName_perm hnodup hperm name] at hrel'
  generalize hp : lookupName name (numberedFrom 1 ps) = p at hrel ⊢
  generalize hp' : lookupName name (numberedFrom 1 ps') = p' at hrel' ⊢
  generalize lookupName name ps = code at hrel hrel'
  cases hrel with
  | none =>
    cases hrel'
    exact .none
  | some h =>
    cases hrel' with
    | some h' =>
      cases h with
      | helpers =>
        cases h'
        exact .some (.inl ⟨rfl, rfl⟩)
      | native code =>
        cases h'
        exact .some (.inr ⟨code, _, _, rfl, rfl, .inr ⟨name, code, hp, hp'⟩⟩)

end Parameters

/-! ### All facilities -/

section All

variable {fs fs' : List Facility} (hfs : fs.Perm Facility.all) (hfs' : fs'.Perm Facility.all)
  {s s' : Setting} (hs : s.hooks = equippedHooks fs) (hs' : s'.hooks = equippedHooks fs')

include hfs in
theorem mem_of_perm (f : Facility) : f ∈ fs :=
  hfs.mem_iff.mpr (by cases f <;> decide)

include hfs in
theorem nodup_parameters : ((fs.flatMap Facility.parameters).map Prod.fst).Nodup :=
  ((hfs.flatMap_right Facility.parameters).map Prod.fst).nodup_iff.mpr (by decide +kernel)

include hfs hfs' hs hs' in
/-- The source of a template is the same if its shorthands can be written out in either order. -/
theorem source_arranged (hlayouts : s.layouts = s'.layouts) {template : String}
    (hplain : IsPlain (withLayouts (s.layouts.getD .empty) template)) :
    s.source template = s'.source template := by
  -- Layouts are resolved first, and then the shorthands are written out in one order or the other.
  have preprocess {fs : List Facility} (hfs : fs.Perm Facility.all) {s' : Setting}
      (hs' : s'.hooks = equippedHooks fs) (hlayouts : s.layouts = s'.layouts) :
      s'.preprocess template
        = writeMessages (writeInclusions (withLayouts (s.layouts.getD .empty) template)) := by
    have hrewrites : fs.flatMap Facility.rewrites = [.inclusions, .messages]
        ∨ fs.flatMap Facility.rewrites = [.messages, .inclusions] :=
      List.perm_pair.mp (hfs.flatMap_right Facility.rewrites)
    simp only [Setting.preprocess, hs', ← hlayouts, equippedHooks, if_pos (mem_of_perm hfs _)]
    rcases hrewrites with heq | heq
    · rw [heq]
      rfl
    · rw [heq, hplain.writeMessages_writeInclusions]
      rfl
  have hwrap (inner : String) : s.wrap inner = s'.wrap inner := by
    simp only [Setting.wrap, hs, hs', equippedHooks, if_pos (mem_of_perm hfs _),
      if_pos (mem_of_perm hfs' _)]
  rw [Setting.source, Setting.source, preprocess hfs hs rfl, preprocess hfs' hs' hlayouts, hwrap]

include hfs hfs' hs hs' in
theorem length_params_arranged : s.hooks.params.length = s'.hooks.params.length := by
  have hperm := (hfs.trans hfs'.symm).flatMap_right Facility.parameters
  have hlength := (hperm.map Prod.fst).length_eq
  rw [← map_fst_numberedFrom 1, ← map_fst_numberedFrom 1 (fs'.flatMap _)] at hlength
  rw [hs, hs']
  exact hlength

include hfs hfs' hs hs' in
theorem version_arranged : s.hooks.version = s'.hooks.version := by
  have hlength := length_params_arranged hfs hfs' hs hs'
  rw [hs, hs'] at hlength ⊢
  simpa [equippedHooks] using hlength

/-- The providers of native functions are constant. -/
theorem constant_numberedFrom {n : Nat} {ps : List Parameter} (h : ∀ p ∈ ps, p.2.isSome = true) :
    ∀ p ∈ (numberedFrom n ps).map Prod.snd, ∃ v, p = .constant v := by
  induction ps generalizing n with
  | nil => exact nofun
  | cons p ps ih =>
    obtain ⟨hp, hps⟩ := List.forall_mem_cons.mp h
    obtain ⟨name, code⟩ := p
    cases code with
    | none => cases hp
    | some code => exact List.forall_mem_cons.mpr ⟨⟨_, rfl⟩, ih hps⟩

include hfs hs in
/-- The parameters have the values of their providers, among them a new object of the helpers. -/
theorem provideAll_arranged (store : Store) :
    s.provideAll store
      = .ok ((numberedFrom 1 (fs.flatMap Facility.parameters)).map fun e =>
            e.2.value (store.heap.newObject (s.helpers.getD .empty)).1)
          { store with heap := (store.heap.newObject (s.helpers.getD .empty)).2 } := by
  obtain ⟨earlier, later, hsplit⟩ := List.append_of_mem (mem_of_perm hfs .helpers)
  have hnodup : fs.Nodup := hfs.nodup_iff.mpr (by decide)
  have codes {f : Facility} (hf : f ≠ .helpers) : ∀ p ∈ f.parameters, p.2.isSome = true := by
    cases f with
    | helpers => exact absurd rfl hf
    | fragments | layouts | messages | guard => decide
  have others {gs : List Facility} (hgs : .helpers ∉ gs) :
      ∀ p ∈ gs.flatMap Facility.parameters, p.2.isSome = true := by
    intro p hp
    obtain ⟨f, hf, hpf⟩ := List.mem_flatMap.mp hp
    exact codes (fun heq => hgs (heq ▸ hf)) p hpf
  rw [hsplit, List.nodup_append, List.nodup_cons] at hnodup
  obtain ⟨-, ⟨hlater, -⟩, hearlier⟩ := hnodup
  have hearlier : .helpers ∉ earlier := fun hmem =>
    hearlier _ hmem _ List.mem_cons_self rfl
  have hproviders : s.hooks.providers
      = (numberedFrom 1 (earlier.flatMap Facility.parameters)).map Prod.snd ++ .helpers
        :: (numberedFrom (1 + natives (earlier.flatMap Facility.parameters))
          (later.flatMap Facility.parameters)).map Prod.snd := by
    rw [hs, hsplit]
    simp [equippedHooks, numberedFrom_append, numberedFrom, Facility.parameters]
  have hconstants := List.forall_mem_append.mpr ⟨constant_numberedFrom (n := 1) (others hearlier),
    constant_numberedFrom (n := 1 + natives (earlier.flatMap Facility.parameters)) (others hlater)⟩
  have hvalues : (numberedFrom 1 (fs.flatMap Facility.parameters)).map
      (fun e => e.2.value (store.heap.newObject (s.helpers.getD .empty)).1)
        = s.hooks.providers.map
          (Provider.value (store.heap.newObject (s.helpers.getD .empty)).1) := by
    rw [hs, equippedHooks, List.map_map]
    rfl
  rw [hvalues, Setting.provideAll, Setting.mapM_provide_eq, hproviders,
    Setting.givenAll_helpers s store hconstants rfl]
  rfl

include hfs hfs' hs hs' in
/-- The values of the additional parameters are the same under each name. -/
theorem settles_provideAll_arranged {w : Pairing} (hnatives : ∀ {i i'},
      SameActs (fs.flatMap Facility.parameters) (fs'.flatMap Facility.parameters) i i' →
        w.natives i i')
    (hhelpers : (paired nothingHidden).Named w (s.helpers.getD .empty).entries
      (s'.helpers.getD .empty).entries) :
    (inStep nothingHidden s s').Settles (pure ()) w
      (BoundAlike nothingHidden s.hooks.params s'.hooks.params) (fun _ => s.provideAll)
      fun _ => s'.provideAll := by
  refine Settles.of_outcome fun w₁ hw₁ a b hab => ?_
  rw [provideAll_arranged hfs hs, provideAll_arranged hfs' hs']
  obtain ⟨w₂, hw₂, hobject, hpaired⟩ :=
    hab.1.newObject (Kinship.Named.mono (K := paired nothingHidden) hw₁ hhelpers)
  have hparameters := (hfs.trans hfs'.symm).flatMap_right Facility.parameters
  refine .ok hw₂ ⟨hpaired, hab.2⟩ ⟨?_, fun name => ?_⟩
  · have hlength := length_params_arranged hfs hfs' hs hs'
    rw [hs, hs'] at hlength
    simpa [equippedHooks] using hlength
  · have hnames : s.hooks.params
        = (numberedFrom 1 (fs.flatMap Facility.parameters)).map Prod.fst := by rw [hs]; rfl
    have hnames' : s'.hooks.params
        = (numberedFrom 1 (fs'.flatMap Facility.parameters)).map Prod.fst := by rw [hs']; rfl
    have hnodup := nodup_parameters hfs
    have hnodup' := nodup_parameters hfs'
    have hrel := lookupName_arranged hnodup hparameters name
    rw [← map_fst_numberedFrom 1] at hnodup hnodup'
    rw [hnames, hnames', get?_bindAll_map hnodup, get?_bindAll_map hnodup']
    generalize lookupName name (numberedFrom 1 (fs.flatMap Facility.parameters)) = p at hrel ⊢
    generalize lookupName name (numberedFrom 1 (fs'.flatMap Facility.parameters)) = p' at hrel ⊢
    cases hrel with
    | none => exact .none
    | some h =>
      rcases h with ⟨rfl, rfl⟩ | ⟨code, i, i', rfl, rfl, hacts⟩
      · exact .some ⟨hobject, rfl⟩
      · exact .some ⟨.native name code (hw₂.natives (hw₁.natives (hnatives hacts))), rfl⟩

end All

/-! ### Registrations -/

/-- The operation makes something known that plugins have made room for.  Helpers see nothing but
their arguments. -/
def Operation.IsRegistration : Operation → Prop
  | .registerFragment _ _ | .removeFragment _ | .registerLayout _ _ | .addMessages _ _
  | .setLocale _ => True
  | .registerHelper _ code => code.IsBlind
  | _ => False

/-- Engines that know the same, on heaps that may differ. -/
structure Arranged (w : Pairing) (e e' : Engine) : Prop where
  fragments : e.setting.fragments = e'.setting.fragments
  layouts : e.setting.layouts = e'.setting.layouts
  catalog : e.setting.catalog = e'.setting.catalog
  codes : e.setting.codes = e'.setting.codes
  numbering : e.setting.numbering = e'.setting.numbering
  blind : ∀ code ∈ e.setting.codes, code.IsBlind
  helpers : Option.Rel
    (fun r r' : Roster Value => (paired nothingHidden).Named w r.entries r'.entries)
    e.setting.helpers e'.setting.helpers
  escape : (paired nothingHidden).Values w e.setting.escape e'.setting.escape
  heaps : Routine.Paired nothingHidden w e.store.heap e'.store.heap

namespace Arranged

variable {w : Pairing} {e e' : Engine} (h : Arranged w e e')
include h

/-- A helper is registered with both engines. -/
theorem registerHelper (name : String) {code : Helper} (hcode : code.IsBlind) :
    ∃ w', w ≤ w' ∧ Arranged w' ((Operation.registerHelper name code).perform e).2
      ((Operation.registerHelper name code).perform e').2 := by
  have hhelpers := h.helpers
  simp only [Operation.perform, Engine.registerHelper, Engine.helpers]
  cases hr : e.setting.helpers with
  | none =>
    rw [hr] at hhelpers
    cases hr' : e'.setting.helpers with
    | none => exact ⟨w, le_rfl, h⟩
    | some r' =>
      rw [hr'] at hhelpers
      cases hhelpers
  | some r =>
    rw [hr] at hhelpers
    cases hr' : e'.setting.helpers with
    | none =>
      rw [hr'] at hhelpers
      cases hhelpers
    | some r' =>
      rw [hr'] at hhelpers
      cases hhelpers with
      | some hnamed =>
        obtain ⟨w', hw, hv, hp⟩ :=
          h.heaps.newNative name (.service (.helper e.setting.codes.size))
        have hold := Kinship.Named.mono (K := paired nothingHidden) hw hnamed
        refine ⟨w', hw, ?_⟩
        exact
          { fragments := h.fragments
            layouts := h.layouts
            catalog := h.catalog
            codes := congrArg (Array.push · code) h.codes
            numbering := h.numbering
            blind := fun other hother => by
              rcases Array.mem_push.mp hother with hother | rfl
              · exact h.blind other hother
              · exact hcode
            helpers := .some (forall₂_putName hold name (h.codes ▸ hv))
            escape := h.escape.mono (K := paired nothingHidden) hw
            heaps := h.codes ▸ hp }

/-- **Registrations** that engines agree in leave them in agreement. -/
theorem perform {op : Operation} (hop : op.IsRegistration) :
    ∃ w', w ≤ w' ∧ Arranged w' (op.perform e).2 (op.perform e').2 := by
  cases op with
  | registerHelper name code => exact h.registerHelper name hop
  | registerFragment name source =>
    simp only [Operation.perform, Engine.registerFragment, Engine.fragments, ← h.fragments]
    cases e.setting.fragments with
    | none => exact ⟨w, le_rfl, h⟩
    | some r => exact ⟨w, le_rfl, { h with fragments := rfl }⟩
  | removeFragment name =>
    simp only [Operation.perform, Engine.removeFragment, Engine.fragments, ← h.fragments]
    cases e.setting.fragments with
    | none => exact ⟨w, le_rfl, h⟩
    | some r => exact ⟨w, le_rfl, { h with fragments := rfl }⟩
  | registerLayout name source =>
    simp only [Operation.perform, Engine.registerLayout, Engine.layouts, ← h.layouts]
    cases e.setting.layouts with
    | none => exact ⟨w, le_rfl, h⟩
    | some r => exact ⟨w, le_rfl, { h with layouts := rfl }⟩
  | addMessages locale messages =>
    simp only [Operation.perform, Engine.addMessages, Engine.catalog, ← h.catalog]
    cases e.setting.catalog with
    | none => exact ⟨w, le_rfl, h⟩
    | some c => exact ⟨w, le_rfl, { h with catalog := rfl }⟩
  | setLocale locale =>
    simp only [Operation.perform, Engine.setLocale, Engine.catalog, ← h.catalog]
    cases e.setting.catalog with
    | none => exact ⟨w, le_rfl, h⟩
    | some c => exact ⟨w, le_rfl, { h with catalog := rfl }⟩
  | use | hook | compile | render | renderValue | clear => exact hop.elim

/-- Engines stay in agreement through any registrations. -/
theorem after {ops : List Operation} (hops : ∀ op ∈ ops, op.IsRegistration) :
    ∃ w', w ≤ w' ∧ Arranged w' (e.after ops) (e'.after ops) := by
  induction ops generalizing w e e' with
  | nil => exact ⟨w, le_rfl, h⟩
  | cons op ops ih =>
    obtain ⟨hop, hops⟩ := List.forall_mem_cons.mp hops
    obtain ⟨w₁, hw₁, h₁⟩ := h.perform hop
    obtain ⟨w₂, hw₂, h₂⟩ := ih h₁ hops
    exact ⟨w₂, hw₁.trans hw₂, h₂⟩

end Arranged

section Invocation

variable {fs fs' : List Facility} (hfs : fs.Perm Facility.all) (hfs' : fs'.Perm Facility.all)
  {w w' : Pairing} {e e' : Engine} (hs : e.setting.hooks = equippedHooks fs)
  (hs' : e'.setting.hooks = equippedHooks fs') (h : Arranged w e e') (hw : w ≤ w')
include hfs hfs' hs hs' h hw

/-- **Routines of one source** are invoked alike by engines that agree, with the same data. -/
theorem Arranged.settles_invoke (hnatives : ∀ {i i'},
      SameActs (fs.flatMap Facility.parameters) (fs'.flatMap Facility.parameters) i i' →
        w.natives i i')
    {fragment fragment' : String → Run String}
    (hfragment : ∀ w₁, w' ≤ w₁ → ∀ name,
      (inStep nothingHidden e.setting e'.setting).Settles (pure ()) w₁
        (inStep nothingHidden e.setting e'.setting).Same (fun _ : Unit => fragment name)
        (fun _ => fragment' name))
    {template : String} {r r' : Compiled} (htwin : Twin e.setting e'.setting template r r')
    (hsource : e.setting.source template = e'.setting.source template) {data data' : Value}
    (hdata : (paired nothingHidden).Values w' data data') (bound : Nat) :
    (inStep nothingHidden e.setting e'.setting).Settles (pure ()) w'
      (inStep nothingHidden e.setting e'.setting).Same
      (fun _ : Unit => e.setting.invoke bound fragment r data)
      (fun _ => e'.setting.invoke bound fragment' r' data') := by
  have hhelpers : (paired nothingHidden).Named w' (e.setting.helpers.getD .empty).entries
      (e'.setting.helpers.getD .empty).entries := by
    have hhelpers := h.helpers
    generalize e.setting.helpers = r at hhelpers ⊢
    generalize e'.setting.helpers = r' at hhelpers ⊢
    cases hhelpers with
    | none => exact .nil
    | some hnamed => exact Kinship.Named.mono (K := paired nothingHidden) hw hnamed
  refine settles_invoke_twin htwin (length_params_arranged hfs hfs' hs hs')
    (h.escape.mono (K := paired nothingHidden) hw)
    (settles_provideAll_arranged hfs hfs' hs hs' (fun hacts => hw.natives (hnatives hacts))
      hhelpers)
    (fun _ => False) (fun _ => hdata) ?_
  intro w₂ hw₂ vs vs' place place' u u' hu hframes hcovered _ _
  have hserves : (inStep nothingHidden e.setting e'.setting).Serves (pure ()) w'
      (fun _ : Unit => e.setting.perform fragment) (fun _ => e'.setting.perform fragment') :=
    serves_twin h.catalog h.codes h.blind hfragment
  have hsees : (inStep nothingHidden e.setting e'.setting).Sees w₂
      (stmtsNames r.program.body) [.locals place] [.locals place'] := by
    refine ⟨.cons (.locals hframes) .nil, fun name _ => .cons ?_ .nil⟩
    rintro ⟨hname⟩
    exact hcovered name hname
  refine (Settles.runBound hw₂ ?_ htwin.number hsees).outcome inStep_excused hu
  rw [← htwin.body_eq hsource]
  exact List.forall₂_same.mpr fun part _ =>
    (everything_fixed trivial (fun _ => trivial) hserves bound).executes callLimit part

end Invocation

/-- Registrations leave the hooks, and of the store all but the heap. -/
theorem after_registrations {ops : List Operation} (hops : ∀ op ∈ ops, op.IsRegistration)
    (e : Engine) : (e.after ops).setting.hooks = e.setting.hooks
      ∧ (e.after ops).store = { e.store with heap := (e.after ops).store.heap } := by
  induction ops generalizing e with
  | nil => exact ⟨rfl, rfl⟩
  | cons op ops ih =>
    obtain ⟨hop, hops⟩ := List.forall_mem_cons.mp hops
    have hquiet : op.acts e = [] ∧ op.isQuiet = true := by
      cases op with
      | use | hook | compile | render | renderValue | clear => exact hop.elim
      | _ => exact ⟨rfl, rfl⟩
    have hhooks := op.hooks_perform e
    rw [hquiet.1] at hhooks
    obtain ⟨ihhooks, ihstore⟩ := ih hops (op.perform e).2
    refine ⟨ihhooks.trans hhooks, ihstore.trans ?_⟩
    rw [Operation.store_perform hquiet.2 e]
    rfl

/-! ### Engines with all facilities -/

/-- A fresh engine on which facilities were installed in this order, and then other operations were
performed. -/
def furnished (bound : Nat) (locale : String) (fs : List Facility) (ops : List Operation) :
    Engine :=
  ((Engine.create bound).after (fs.map fun f => .use (f.plugin locale))).after ops

section Furnished

variable {fs fs' : List Facility} (hfs : fs.Perm Facility.all) (hfs' : fs'.Perm Facility.all)
include hfs hfs'

/-- The engines agree once the facilities are there. -/
theorem arranged_equipped (bound : Nat) (locale : String) :
    ∃ w, (∀ {i i'},
        SameActs (fs.flatMap Facility.parameters) (fs'.flatMap Facility.parameters) i i' →
        w.natives i i')
      ∧ Arranged w (equipped bound locale fs) (equipped bound locale fs') := by
  let ps := fs.flatMap Facility.parameters
  let ps' := fs'.flatMap Facility.parameters
  have hmem := mem_of_perm hfs
  have hmem' := mem_of_perm hfs'
  refine ⟨.ofNatives (SameActs ps ps') (oneToOne_sameActs ps ps'), id, ?_⟩
  refine
    { fragments := ?_, layouts := ?_, catalog := ?_, codes := rfl, numbering := rfl, blind := nofun
      helpers := ?_, escape := .native _ _ (.inl ⟨rfl, rfl⟩)
      heaps := paired_ofNatives _ _ fun hacts n => ?_ }
  · simp only [equipped, equippedWith, if_pos (hmem _), if_pos (hmem' _)]
  · simp only [equipped, equippedWith, if_pos (hmem _), if_pos (hmem' _)]
  · simp only [equipped, equippedWith, if_pos (hmem _), if_pos (hmem' _)]
  · simp only [equipped, equippedWith, if_pos (hmem _), if_pos (hmem' _)]
    exact .some .nil
  · have hlt := hacts.lt
    show _ = 1 + natives ps + n ↔ _ = 1 + natives ps' + n
    omega

end Furnished

section Furnished

variable {fs fs' : List Facility} (hfs : fs.Perm Facility.all) (hfs' : fs'.Perm Facility.all)
  (cap : Nat) (locale : String) {ops : List Operation} (hops : ∀ op ∈ ops, op.IsRegistration)
include hfs hops

/-- The hooks come from the facilities, and nothing has been compiled. -/
theorem furnished_spec :
    (furnished cap locale fs ops).setting.hooks = equippedHooks fs
      ∧ (furnished cap locale fs ops).store
        = { heap := (furnished cap locale fs ops).store.heap, cache := Cache.create cap } := by
  have hnodup : fs.Nodup := hfs.nodup_iff.mpr (by decide)
  rw [furnished, after_use _ _ hnodup]
  exact after_registrations hops _

include hfs'

theorem arranged_furnished :
    ∃ w, (∀ {i i'},
        SameActs (fs.flatMap Facility.parameters) (fs'.flatMap Facility.parameters) i i' →
        w.natives i i')
      ∧ Arranged w (furnished cap locale fs ops) (furnished cap locale fs' ops) := by
  have hnodup : fs.Nodup := hfs.nodup_iff.mpr (by decide)
  have hnodup' : fs'.Nodup := hfs'.nodup_iff.mpr (by decide)
  obtain ⟨w, hnatives, h⟩ := arranged_equipped hfs hfs' cap locale
  obtain ⟨w', hw, h⟩ := h.after hops
  rw [furnished, furnished, after_use _ _ hnodup, after_use _ _ hnodup']
  exact ⟨w', fun hacts => hw.natives (hnatives hacts), h⟩

/-- **The order of the facilities does not matter** to what is rendered, if it does not matter in
which order the shorthands of the templates are written out. -/
theorem render_furnished {template : Option String}
    (hplain : ∀ source, (template = some source ∨ ∃ name,
        ((furnished cap locale fs ops).setting.fragments.getD .empty).get? name = some source) →
      IsPlain (withLayouts ((furnished cap locale fs ops).setting.layouts.getD .empty) source))
    (bound : Nat) (data : Json) :
    ((furnished cap locale fs ops).render bound template data).1
      = ((furnished cap locale fs' ops).render bound template data).1 := by
  obtain ⟨hs, hstore⟩ := furnished_spec hfs cap locale hops
  obtain ⟨hs', hstore'⟩ := furnished_spec hfs' cap locale hops
  obtain ⟨w, hnatives, h⟩ := arranged_furnished hfs hfs' cap locale hops
  generalize furnished cap locale fs ops = e at *
  generalize furnished cap locale fs' ops = e' at *
  obtain ⟨w', hw, hv, hp⟩ :=
    Settles.ofJson_rel (L := pairing nothingHidden fun _ _ => True) h.heaps data
  let known (source : String) : Prop := IsPlain (withLayouts (e.setting.layouts.getD .empty) source)
  let made : Engine := (e.make fun heap => heap.ofJson data).2
  let made' : Engine := (e'.make fun heap => heap.ofJson data).2
  have htwins : Twins known made.setting made'.setting :=
    { version := version_arranged hfs hfs' hs hs'
      numbering := h.numbering
      fragments := h.fragments
      source := fun hplain => source_arranged hfs hfs' hs hs' h.layouts hplain
      known := fun hget => hplain _ (.inr ⟨_, hget⟩) }
  have hstores : (inStep nothingHidden made.setting made'.setting).stores w' made.store
      made'.store := by
    refine ⟨hp, fun h h' => ?_⟩
    show InStep e.setting e'.setting { e.store with heap := h } { e'.store with heap := h' }
    rw [hstore, hstore']
    exact InStep.of_create rfl rfl rfl rfl (Nat.zero_le _) (Nat.zero_le _)
  show (made.renderValue bound template _).1 = (made'.renderValue bound template _).1
  refine Twins.renderValue htwins hstores (D := (paired nothingHidden).Values) ?_ bound ?_ ?_ hv
  · exact fun hw hv => hv.mono (K := paired nothingHidden) hw
  · intro w₁ hw₁ fragment fragment' hfragment template r r' data data' hknown htwin hdata
    exact h.settles_invoke hfs hfs' hs hs' (hw.trans hw₁) hnatives hfragment htwin
      (htwins.source hknown) hdata bound
  · exact fun source hsource => hplain source (.inl hsource)

end Furnished

/-- A fragment that shows a message is included, on engines with facilities from first to last and
from last to first. -/
theorem render_furnished_reversed :
    let ops : List Operation :=
      [.registerFragment "p" "[[@ k ]]", .registerHelper "f" (jsonHelper fun _ => .ok .null),
        .addMessages "en" [("k", "v")]]
    ((furnished 4 "en" Facility.all ops).render 1000 (some "[[> p ]]!") (.object [])).1
        = ((furnished 4 "en" Facility.all.reverse ops).render 1000 (some "[[> p ]]!")
            (.object [])).1
      ∧ ((furnished 4 "en" Facility.all ops).render 1000 (some "[[> p ]]!") (.object [])).1
        = .ok "v!" := by
  intro ops
  have hops : ∀ op ∈ ops, op.IsRegistration :=
    List.forall_mem_cons.mpr ⟨trivial, List.forall_mem_cons.mpr
      ⟨isBlind_jsonHelper _, List.forall_mem_singleton.mpr trivial⟩⟩
  refine ⟨render_furnished (.refl _) (List.reverse_perm _) 4 "en" hops ?_ 1000 _,
    by decide +kernel⟩
  · have hfront {inner : List Char} (hinner : inner.head? ≠ some '[') :
        ¬ (Segment.marker inner).HidesShorthand := by
      rintro ⟨_, _, _, _, rfl⟩
      exact hinner rfl
    rintro source (heq | ⟨name, hget⟩)
    · cases heq
      refine ⟨[.marker ['>', ' ', 'p', ' '], .text ['!']], by decide +kernel, ?_⟩
      exact List.forall_mem_cons.mpr ⟨⟨by decide, hfront (by decide)⟩,
        List.forall_mem_singleton.mpr ⟨by decide, id⟩⟩
    · have hget : lookupName name [("p", "[[@ k ]]")] = some source := hget
      simp only [lookupName] at hget
      split at hget
      · cases hget
        refine ⟨[.marker ['@', ' ', 'k', ' ']], by decide +kernel, ?_⟩
        exact List.forall_mem_singleton.mpr ⟨by decide, hfront (by decide)⟩
      · cases hget

/-- A marker that begins with a bracket and an empty shorthand takes in what follows, and then it
matters which shorthand is written out first. -/
theorem render_hidden_shorthand :
    let template := "[[ /* ]][[[> ]]*/ //[[@ x ]]"
    let fs : List Facility := [.messages, .fragments, .layouts, .helpers, .guard]
    fs.Perm Facility.all
      ∧ (∃ segments, (withLayouts .empty template).toList = printed segments
        ∧ ∀ s ∈ segments, s.IsRegular)
      ∧ ((furnished 4 "en" Facility.all []).render 1000 (some template) (.object [])).1
        = .ok "x&quot;)"
      ∧ ((furnished 4 "en" fs []).render 1000 (some template) (.object [])).1
        = .error (.compile ⟨6, .character '\\'⟩) := by
  refine ⟨by decide, ⟨[.marker [' ', '/', '*', ' '], .marker ['[', '>', ' '],
    .text ['*', '/', ' ', '/', '/'], .marker ['@', ' ', 'x', ' ']], by decide +kernel, by decide⟩,
    by decide +kernel, by decide +kernel⟩

end Stencil
