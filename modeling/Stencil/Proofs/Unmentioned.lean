import Stencil.Proofs.Bundled
import Stencil.Proofs.DataScope
import Stencil.Proofs.Reading.Values
import Stencil.Proofs.Steady

/-!
# Members that no template mentions

A template looks its names up in the data first.  So a member of the data changes nothing if its
name is none of those that the routines of the template and of the fragments use, those included that
no author wrote: the code that is generated for markers names functions too.

* `ofJson_added` — data with one more member, put on a heap beside the data without it;
* `Hooks.LeaveScope`, `Operation.LeavesScope` — hooks, and operations, that leave the scope of the
  data in front of all else;
* `Engine.IsOpen`, `Engine.IsOpen.after` — engines whose routines begin with that scope;
* `Engine.IsOpen.settles_invoke` — such routines are invoked alike with either object;
* `render_unmentioned` — data with one more member that no routine mentions are rendered the same.
-/

namespace Stencil

open Routine Likeness Template Reading

/-! ### One more member -/

/-- Members of a row are put on the heap one after the other. -/
theorem Routine.Heap.ofJsonMembers_append (h : Heap) (js ks : List (String × Json)) :
    h.ofJsonMembers (js ++ ks)
      = ((h.ofJsonMembers js).1 ++ ((h.ofJsonMembers js).2.ofJsonMembers ks).1,
        ((h.ofJsonMembers js).2.ofJsonMembers ks).2) := by
  induction js generalizing h with
  | nil => rfl
  | cons e js ih =>
    obtain ⟨name, json⟩ := e
    simp only [List.cons_append, Heap.ofJsonMembers, ih]

section Added

variable {hidden : String → Prop} {w : Pairing} {h h' : Heap}

/-- What is put on one of the heaps is in nobody's way. -/
theorem Routine.Paired.puts (hp : Routine.Paired hidden w h h') {h'' : Heap} (hputs : Puts h' h'') :
    Routine.Paired hidden w h h'' where
  arrays hr := by
    obtain ⟨hlt, hlt', hrows⟩ := hp.arrays hr
    rw [hputs.items _ hlt']
    exact ⟨hlt, hlt'.trans_le hputs.arrays_size, hrows⟩
  objects hr := by
    obtain ⟨hlt, hlt', hnamed⟩ := hp.objects hr
    rw [hputs.members _ hlt']
    exact ⟨hlt, hlt'.trans_le hputs.objects_size, hnamed⟩
  secrets hr := by
    obtain ⟨hlt, hlt', hlook⟩ := hp.secrets hr
    rw [hputs.members _ hlt']
    exact ⟨hlt, hlt'.trans_le hputs.objects_size, hlook⟩
  frames hr := by
    obtain ⟨hlt, hlt', hlook⟩ := hp.frames hr
    have hframe (place : Nat) : h''.frame place = h'.frame place := by
      rw [Heap.frame, Heap.frame, hputs.frames]
    rw [hputs.frames, hframe]
    exact ⟨hlt, hlt', hlook⟩
  natives hr n := by
    rw [hputs.identities]
    exact hp.natives hr n
  bound := hp.bound

/-- Rosters that show the same under every name that is not hidden. -/
def ShowAlike (hidden : String → Prop) (w : Pairing) (r r' : Roster Value) : Prop :=
  ∀ name, ¬ hidden name → Option.Rel ((paired hidden).Values w) (r.get? name) (r'.get? name)

theorem ShowAlike.insertAll {r r' : Roster Value} (hr : ShowAlike hidden w r r')
    {ms ms' : List (String × Value)} (hms : (paired hidden).Named w ms ms') :
    ShowAlike hidden w (r.insertAll ms) (r'.insertAll ms') := by
  induction hms generalizing r r' with
  | nil => exact hr
  | @cons e e' ms ms' he _ ih =>
    obtain ⟨key, v⟩ := e
    obtain ⟨_, v'⟩ := e'
    obtain ⟨rfl, hv⟩ := he
    refine ih fun name hname => ?_
    rw [Roster.get?_insert, Roster.get?_insert]
    split
    · exact .some hv
    · exact hr name hname

/-- An entry under a hidden name does not show. -/
theorem ShowAlike.insert_hidden {r r' : Roster Value} (hr : ShowAlike hidden w r r') {k : String}
    (hk : hidden k) (v : Value) : ShowAlike hidden w r (r'.insert k v) := by
  intro name hname
  rw [Roster.get?_insert, if_neg fun heq : k = name => hname (heq ▸ hk)]
  exact hr name hname

/-- **Data with one more member** under a hidden name are objects to open that show the same under
all other names. -/
theorem ofJson_added (hp : Routine.Paired hidden w h h') (before after : List (String × Json))
    {k : String} (hk : hidden k) (v : Json) :
    ∃ w' object object', w ≤ w'
      ∧ (h.ofJson (.object (before ++ after))).1 = .object object
      ∧ (h'.ofJson (.object (before ++ (k, v) :: after))).1 = .object object'
      ∧ w'.secrets object object'
      ∧ Routine.Paired hidden w' (h.ofJson (.object (before ++ after))).2
        (h'.ofJson (.object (before ++ (k, v) :: after))).2 := by
  obtain ⟨w₁, hw₁, hbefore, hp₁⟩ :=
    Settles.ofJsonMembers_rel (L := pairing hidden fun _ _ => True) hp before
  have hp₁ : Routine.Paired hidden w₁ _ _ := hp₁
  let between := (h'.ofJsonMembers before).2
  have hputs := (holds_ofJson between v).1
  obtain ⟨w₂, hw₂, hafter, hp₂⟩ :=
    Settles.ofJsonMembers_rel (L := pairing hidden fun _ _ => True) (hp₁.puts hputs) after
  have hshow : ShowAlike hidden w₂
      (.ofList ((h.ofJsonMembers before).1 ++ ((h.ofJsonMembers before).2.ofJsonMembers after).1))
      (.ofList ((h'.ofJsonMembers before).1
        ++ (k, (between.ofJson v).1) :: ((between.ofJson v).2.ofJsonMembers after).1)) := by
    simp only [Roster.ofList, Roster.insertAll, List.foldl_append, List.foldl_cons]
    refine ShowAlike.insertAll (.insert_hidden ?_ hk _) hafter
    exact ShowAlike.insertAll (fun _ _ => .none)
      (Kinship.Named.mono (K := paired hidden) hw₂ hbefore)
  obtain ⟨w₃, hw₃, hsecret, hp₃⟩ := Paired.newSecret hp₂ hshow
  refine ⟨w₃, _, _, hw₁.trans (hw₂.trans hw₃), ?_, ?_, hsecret, ?_⟩
  · rw [Heap.ofJson, Heap.ofJsonMembers_append]
    rfl
  · rw [Heap.ofJson, Heap.ofJsonMembers_append, Heap.ofJsonMembers]
    rfl
  · rw [Heap.ofJson, Heap.ofJsonMembers_append, Heap.ofJson, Heap.ofJsonMembers_append,
      Heap.ofJsonMembers]
    exact hp₃

end Added

/-! ### Hooks that leave the scope of the data -/

/-- Whether the change resolves layouts. -/
def Preprocessor.readsLayouts : Preprocessor → Bool
  | .layouts => true
  | _ => false

/-- Whether the act leaves the scope of the data in front of all else: it wraps nothing around it,
and no parameter takes the name of the data. -/
def Hook.leavesScope : Hook → Bool
  | .addPreprocessor p | .addFirstPreprocessor p => !p.readsLayouts
  | .addWrapper _ | .addFirstWrapper _ => false
  | .parameter name | .inject name _ => name != dataName
  | .value _ => true

/-- The acts leave the scope of the data, and if there are any, they add a parameter. -/
structure LeaveScope (acts : List Hook) : Prop where
  each : ∀ act ∈ acts, act.leavesScope = true
  silent : (Growth.ofHooks acts).params = [] → acts = []

/-- Hooks under which each routine begins with the scope of the data. -/
structure Hooks.LeaveScope (h : Hooks) : Prop where
  wrappers : h.wrappers.hooks = []
  params : dataName ∉ h.params
  preprocessors : ∀ p ∈ h.preprocessors.hooks, p.readsLayouts = false

theorem Hooks.LeaveScope.applyAll {h : Hooks} (hh : h.LeaveScope) {acts : List Hook}
    (hacts : ∀ act ∈ acts, act.leavesScope = true) : (h.applyAll acts).LeaveScope := by
  induction acts generalizing h with
  | nil => exact hh
  | cons act acts ih =>
    obtain ⟨hact, hacts⟩ := List.forall_mem_cons.mp hacts
    refine ih ?_ hacts
    have more {name : String} (hname : (name != dataName) = true) :
        dataName ∉ h.params ++ [name] := by
      rw [List.mem_append, List.mem_singleton, not_or]
      exact ⟨hh.params, fun heq => bne_iff_ne.mp hname heq.symm⟩
    cases act with
    | addPreprocessor p =>
      have hp : p.readsLayouts = false := by
        simpa only [Hook.leavesScope, Bool.not_eq_true'] using hact
      exact ⟨hh.wrappers, hh.params,
        List.forall_mem_append.mpr ⟨hh.preprocessors, List.forall_mem_singleton.mpr hp⟩⟩
    | addFirstPreprocessor p =>
      have hp : p.readsLayouts = false := by
        simpa only [Hook.leavesScope, Bool.not_eq_true'] using hact
      exact ⟨hh.wrappers, hh.params, List.forall_mem_cons.mpr ⟨hp, hh.preprocessors⟩⟩
    | addWrapper | addFirstWrapper => cases hact
    | parameter name => exact ⟨hh.wrappers, more hact, hh.preprocessors⟩
    | value p => exact ⟨hh.wrappers, hh.params, hh.preprocessors⟩
    | inject name p => exact ⟨hh.wrappers, more hact, hh.preprocessors⟩

/-- The source of a template is its generated code in the scope of the data. -/
theorem Hooks.LeaveScope.source_eq {s : Setting} (h : s.hooks.LeaveScope) (template : String) :
    s.source template = inDataScope (generate (tokenize (s.preprocess template))) := by
  rw [Setting.source, Setting.wrap, h.wrappers]
  rfl

/-- The layouts have no part in the source of a template. -/
theorem Hooks.LeaveScope.source_congr {s s' : Setting} (h : s.hooks.LeaveScope)
    (hhooks : s'.hooks = s.hooks) (template : String) : s'.source template = s.source template := by
  have hpreprocess : s'.preprocess template = s.preprocess template := by
    have hread := h.preprocessors
    rw [Setting.preprocess, Setting.preprocess, hhooks]
    generalize s.hooks.preprocessors.hooks = ps at hread ⊢
    induction ps generalizing template with
    | nil => rfl
    | cons p ps ih =>
      obtain ⟨hp, hps⟩ := List.forall_mem_cons.mp hread
      have happly : p.apply (s'.layouts.getD .empty) template
          = p.apply (s.layouts.getD .empty) template := by
        cases p with
        | layouts => cases hp
        | inclusions | messages | custom => rfl
      rw [List.foldl_cons, List.foldl_cons, happly, ih _ hps]
  rw [h.source_eq, Hooks.LeaveScope.source_eq (hhooks ▸ h), hpreprocess]

/-! ### Plugins and operations that leave it -/

/-- Whether the plugin makes fragments, helpers or messages known, or some of them one after the
other. -/
def Plugin.leavesScope : Plugin → Bool
  | .fragments | .helpers | .messages _ => true
  | .both first second => first.leavesScope && second.leavesScope
  | .layouts | .guard | .steps _ => false

theorem Plugin.isBundled_of_leavesScope {p : Plugin} (hp : p.leavesScope = true) :
    p.isBundled = true := by
  match p with
  | .fragments | .helpers | .messages _ => rfl
  | .both first second =>
    obtain ⟨hfirst, hsecond⟩ := Bool.and_eq_true_iff.mp hp
    exact Bool.and_eq_true_iff.mpr
      ⟨isBundled_of_leavesScope hfirst, isBundled_of_leavesScope hsecond⟩
  | .layouts | .guard | .steps _ => cases hp

/-- The acts of a feature leave the scope if those do that it performs when it is new. -/
theorem LeaveScope.of_if {installed : Bool} {acts : List Hook} (h : LeaveScope acts) :
    LeaveScope (if installed then [] else acts) := by
  split
  · exact ⟨nofun, fun _ => rfl⟩
  · exact h

/-- The acts of two plugins, those between first. -/
theorem LeaveScope.andThen {t t' : Trace} (h : LeaveScope t.acts) (h' : LeaveScope t'.acts) :
    LeaveScope (t.andThen t').acts := by
  rw [Trace.acts_eq] at h h' ⊢
  have hacts : (t.andThen t').innerActs ++ (t.andThen t').own
      = t.innerActs ++ t'.innerActs ++ (t.own ++ t'.own) := by
    simp only [Trace.innerActs, Trace.andThen, List.flatten_append]
  rw [hacts]
  refine ⟨?_, fun hnone => ?_⟩
  · have heach := h.each
    have heach' := h'.each
    rw [List.forall_mem_append] at heach heach'
    simp only [List.forall_mem_append]
    exact ⟨⟨heach.1, heach'.1⟩, heach.2, heach'.2⟩
  · simp only [Growth.params_append, List.append_eq_nil_iff] at hnone
    have hfirst := h.silent (by simp only [Growth.params_append, hnone, List.append_nil])
    have hsecond := h'.silent (by simp only [Growth.params_append, hnone, List.append_nil])
    rw [List.append_eq_nil_iff] at hfirst hsecond
    simp only [hfirst, hsecond, List.append_nil]

theorem Plugin.leaveScope_acts {p : Plugin} (hp : p.leavesScope = true) (e : Engine) :
    LeaveScope (p.trace e).acts := by
  match p with
  | .fragments =>
    show LeaveScope [e.fragmentActs].flatten
    rw [List.flatten_singleton]
    refine .of_if ⟨?_, by rintro ⟨⟩⟩
    simp [Heap.newNative, Hook.leavesScope, Preprocessor.readsLayouts]
    decide
  | .helpers =>
    show LeaveScope [e.helperActs].flatten
    rw [List.flatten_singleton]
    exact .of_if ⟨List.forall_mem_singleton.mpr rfl, by rintro ⟨⟩⟩
  | .messages _ =>
    show LeaveScope [e.messageActs].flatten
    rw [List.flatten_singleton]
    refine .of_if ⟨?_, by rintro ⟨⟩⟩
    simp [Heap.newNative, Hook.leavesScope, Preprocessor.readsLayouts]
    decide
  | .both first second =>
    obtain ⟨hfirst, hsecond⟩ := Bool.and_eq_true_iff.mp hp
    exact (leaveScope_acts hfirst e).andThen (leaveScope_acts hsecond _)
  | .layouts | .guard | .steps _ => cases hp

/-- The operation leaves the scope of the data in front of all else, and registers helpers only that
see nothing but their arguments. -/
def Operation.LeavesScope : Operation → Prop
  | .use p => p.leavesScope = true
  | .hook _ => False
  | .registerHelper _ code => code.IsBlind
  | _ => True

theorem Operation.isBundled_of_leavesScope {op : Operation} (h : op.LeavesScope) :
    op.isBundled = true := by
  cases op with
  | use p => exact Plugin.isBundled_of_leavesScope h
  | hook => exact h.elim
  | _ => rfl

theorem Operation.leaveScope_acts {op : Operation} (h : op.LeavesScope) (e : Engine) :
    LeaveScope (op.acts e) := by
  cases op with
  | use p => exact Plugin.leaveScope_acts h _
  | hook => exact h.elim
  | _ => exact ⟨nofun, fun _ => rfl⟩

/-! ### Open engines -/

/-- The routines of the engine begin with the scope of the data, and what they are given are native
functions, none of them under the name of the data. -/
structure Engine.IsOpen (e : Engine) : Prop where
  hooks : e.setting.hooks.LeaveScope
  bundled : e.setting.IsBundled
  blind : ∀ code ∈ e.setting.codes, code.IsBlind
  /-- The kept routines are those that would be compiled now. -/
  kept : Kept e.setting (New e.setting) e.store

theorem isOpen_create (bound : Nat) : (Engine.create bound).IsOpen where
  hooks := ⟨rfl, nofun, nofun⟩
  bundled := isBundled_onStore {} #[] bound
  blind := nofun
  kept := .of_create bound rfl (Nat.le_refl 0)

/-- A routine is still new while the hooks stay. -/
theorem new_congr {s s' : Setting} (h : s.hooks.LeaveScope) (hhooks : s'.hooks = s.hooks)
    (hnumbering : s'.numbering = s.numbering) {template : String} {routine : Compiled}
    (hr : New s template routine) : New s' template routine := by
  obtain ⟨program, count, hparse, rfl⟩ := hr
  refine ⟨program, count, ?_, ?_⟩
  · rw [h.source_congr hhooks, Setting.params, hhooks]
    exact hparse
  · rw [h.source_congr hhooks, hnumbering]

namespace Engine.IsOpen

variable {e : Engine} (h : e.IsOpen)
include h

theorem perform {op : Operation} (hop : op.LeavesScope) : (op.perform e).2.IsOpen where
  hooks := by
    rw [op.hooks_perform]
    exact h.hooks.applyAll (op.leaveScope_acts hop e).each
  bundled := isBundled_perform (op.isBundled_of_leavesScope hop) h.bundled
  blind := by
    intro code hcode
    rcases op.codes_perform e with hsame | ⟨name, new, rfl, hmore⟩
    · exact h.blind code (hsame ▸ hcode)
    · rw [hmore, Array.mem_push] at hcode
      rcases hcode with hold | rfl
      · exact h.blind code hold
      · exact hop
  kept := by
    refine h.kept.perform (fun _ _ hr => hr) op fun hparams template routine hr => ?_
    -- Without new parameters, nothing is hooked in.
    have hhooks := op.hooks_perform e
    have hsilent : op.acts e = [] := by
      refine (op.leaveScope_acts hop e).silent ?_
      rw [hhooks, Hooks.params_applyAll] at hparams
      exact List.append_right_eq_self.mp hparams
    rw [hsilent] at hhooks
    exact new_congr h.hooks hhooks (op.numbering_perform e) hr

/-- **Engines stay open** through any operations that leave the scope of the data. -/
theorem after {ops : List Operation} (hops : ∀ op ∈ ops, op.LeavesScope) :
    (e.after ops).IsOpen := by
  induction ops generalizing e with
  | nil => exact h
  | cons op ops ih =>
    obtain ⟨hop, hops⟩ := List.forall_mem_cons.mp hops
    exact ih (h.perform hop) hops

end Engine.IsOpen

/-! ### Rendering with one more member -/

section Open

variable {s : Setting} {hidden : String → Prop} {w : Pairing}

/-- Native functions are the same on both sides if their numbers are. -/
theorem values_of_isNative (hnatives : ∀ i, w.natives i i) {v : Value} (hv : v.isNative = true) :
    (paired hidden).Values w v v := by
  cases v with
  | native name code identity => exact .native name code (hnatives identity)
  | _ => cases hv

/-- The values of the additional parameters are the same on both sides. -/
theorem settles_provideAll_bundled (hs : s.IsBundled) (hnatives : ∀ i, w.natives i i) :
    (inStep hidden s s).Settles (pure ()) w (BoundAlike hidden s.hooks.params s.hooks.params)
      (fun _ => s.provideAll) fun _ => s.provideAll := by
  refine Settles.imp (Settles.mapValues (R := fun p p' => p = p' ∧ p ∈ s.hooks.providers)
    (f := fun _ => s.provide) (List.forall₂_same.mpr fun p hp => ⟨rfl, hp⟩) ?_)
    fun _ _ _ _ => .of_rows
  rintro p _ ⟨rfl, hp⟩
  have hbundled := hs.providers p hp
  cases p with
  | constant v => exact .value (values_of_isNative hnatives hbundled)
  | custom make => cases hbundled
  | helpers =>
    let make : Run Value := Run.make fun h => h.newObject (s.helpers.getD .empty)
    show (inStep hidden s s).Settles (pure ()) w (inStep hidden s s).Values (fun _ => make)
      fun _ => make
    refine Settles.make fun w₁ hw₁ h h' hp => ?_
    refine Paired.newObject hp (List.forall₂_same.mpr fun e he => ⟨rfl, ?_⟩)
    exact values_of_isNative (fun i => hw₁.natives (hnatives i)) (hs.helpers e he)

/-- The data are bound to their own name. -/
theorem get?_bindAll_data (h : s.hooks.LeaveScope) (data : Value) (vs : List Value) :
    (bindAll .empty s.params (data :: s.escape :: vs)).get? dataName = some ⟨data, true⟩ := by
  show (bindAll ((Roster.empty.insert _ _).insert _ _) s.hooks.params vs).get? dataName = _
  rw [get?_bindAll, get?_bindAll_of_notMem _ h.params, Roster.get?_insert, Roster.get?_insert]
  rfl

/-- New routines open the data, and use such names only as their setting mentions. -/
theorem opensData_of_new (h : s.hooks.LeaveScope) {template : String} {routine : Compiled}
    (hr : New s template routine) :
    (∃ stmts rest, OpensData routine.program.body stmts rest)
      ∧ s.mentions template = namesBehind routine.program.body := by
  obtain ⟨program, count, hparse, rfl⟩ := hr
  have hopens := hparse
  rw [h.source_eq] at hopens
  obtain ⟨-, stmts, rest, hopens⟩ := parse_dataScope hopens
  refine ⟨hopens.numbered, ?_⟩
  rw [Setting.mentions, hparse]

/-- **Routines of one template** are invoked alike with objects that differ in hidden members, if the
template mentions none of these. -/
theorem Engine.IsOpen.settles_invoke {e : Engine} (h : e.IsOpen) (hnatives : ∀ i, w.natives i i)
    {fragment fragment' : String → Run String}
    (hfragment : ∀ w', w ≤ w' → ∀ name, (inStep hidden e.setting e.setting).Settles (pure ()) w'
      (inStep hidden e.setting e.setting).Same (fun _ : Unit => fragment name)
      (fun _ => fragment' name))
    {template : String} {r r' : Compiled}
    (hmentions : ∀ name ∈ e.setting.mentions template,
      name ≠ dataName ∧ (hidden name → name = outputName))
    (htwin : Twin e.setting e.setting template r r') {object object' : Nat}
    (hobjects : w.secrets object object') (bound : Nat) :
    (inStep hidden e.setting e.setting).Settles (pure ()) w
      (inStep hidden e.setting e.setting).Same
      (fun _ : Unit => e.setting.invoke bound fragment r (.object object))
      (fun _ => e.setting.invoke bound fragment' r' (.object object')) := by
  refine settles_invoke_twin htwin rfl (values_of_isNative hnatives h.bundled.escape)
    (settles_provideAll_bundled h.bundled hnatives) (· = dataName) (absurd rfl) ?_
  intro w₂ hw₂ vs vs' place place' u u' hu hframes hcovered hframe hframe'
  obtain ⟨⟨stmts, rest, hopens⟩, hnames⟩ := opensData_of_new h.hooks htwin.left
  have hserves : (inStep hidden e.setting e.setting).Serves (pure ()) w
      (fun _ : Unit => e.setting.perform fragment) (fun _ => e.setting.perform fragment') :=
    serves_twin rfl rfl h.blind hfragment
  have hhold : HoldData w₂ u.heap u'.heap place place' := by
    refine ⟨hframes, hcovered, object, object', hw₂.secrets hobjects, ?_, ?_⟩
    · rw [hframe]
      exact get?_bindAll_data h.hooks _ vs
    · rw [hframe']
      exact get?_bindAll_data h.hooks _ vs'
  rw [← htwin.number]
  exact runBound_opened hserves hw₂ hu hhold (htwin.body_eq rfl) hopens
    (fun name hname => hmentions name (hnames ▸ hname)) bound _ _

end Open

/-- **A member that nothing mentions** makes no difference: data with it and without it are rendered
the same, if none of the routines of the template and of the fragments uses its name or that of the
data. -/
theorem render_unmentioned (cap : Nat) {ops : List Operation} (hops : ∀ op ∈ ops, op.LeavesScope)
    {k : String} {template : Option String}
    (hmentions : ∀ source, (template = some source ∨ ∃ name,
        (((Engine.create cap).after ops).setting.fragments.getD .empty).get? name = some source) →
      ∀ name ∈ ((Engine.create cap).after ops).setting.mentions source,
        name ≠ dataName ∧ (name = k → k = outputName))
    (bound : Nat) (before after : List (String × Json)) (v : Json) :
    (((Engine.create cap).after ops).render bound template (.object (before ++ (k, v) :: after))).1
      = (((Engine.create cap).after ops).render bound template (.object (before ++ after))).1 := by
  have hopen := (isOpen_create cap).after hops
  generalize (Engine.create cap).after ops = e at hmentions hopen ⊢
  let hidden (name : String) : Prop := name = k
  have hsame : OneToOne Eq := fun p p' q q' h h' => by rw [h, h']
  have hstart : Routine.Paired hidden (.ofNatives Eq hsame) e.store.heap e.store.heap :=
    paired_ofNatives hidden hsame fun h n => by rw [h]
  have hk : hidden k := rfl
  obtain ⟨w, object, object', hw, hdata, hdata', hobjects, hp⟩ :=
    ofJson_added hstart before after hk v
  let made : Engine := (e.make fun heap => heap.ofJson (.object (before ++ after))).2
  let made' : Engine := (e.make fun heap => heap.ofJson (.object (before ++ (k, v) :: after))).2
  let known (source : String) : Prop :=
    ∀ name ∈ e.setting.mentions source, name ≠ dataName ∧ (hidden name → name = outputName)
  have hknown (source : String) (hsource : template = some source ∨ ∃ name,
      (e.setting.fragments.getD .empty).get? name = some source) : known source :=
    fun name hname => ⟨(hmentions source hsource name hname).1, fun heq =>
      heq.trans ((hmentions source hsource name hname).2 heq)⟩
  have htwins : Twins known made.setting made'.setting :=
    { version := rfl
      numbering := rfl
      fragments := rfl
      source := fun _ => rfl
      known := fun hget => hknown _ (.inr ⟨_, hget⟩) }
  have hstores : (inStep hidden made.setting made'.setting).stores w made.store made'.store :=
    ⟨hp, fun h h' => ⟨rfl, rfl, ⟨rfl, List.forall₂_same.mpr fun _ _ => ⟨rfl, rfl⟩⟩,
      hopen.kept.change h, hopen.kept.change h'⟩⟩
  show (made'.renderValue bound template _).1 = (made.renderValue bound template _).1
  refine (Twins.renderValue htwins hstores (D := fun w d d' => ∃ object object',
    d = .object object ∧ d' = .object object' ∧ w.secrets object object') ?_ bound ?_ ?_
    ⟨object, object', hdata, hdata', hobjects⟩).symm
  · rintro w w' _ _ hw ⟨object, object', rfl, rfl, h⟩
    exact ⟨object, object', rfl, rfl, hw.secrets h⟩
  · rintro w₁ hw₁ fragment fragment' hfragment source r r' _ _ hsource htwin
      ⟨object, object', rfl, rfl, hobjects⟩
    exact hopen.settles_invoke (fun i => hw₁.natives (hw.natives rfl)) hfragment hsource htwin
      hobjects bound
  · exact fun source hsource => hknown source (.inl hsource)

/-- A fragment shows a message and a member of the data, and another member is added that it does
not mention. -/
theorem render_unmentioned_extra :
    let ops : List Operation :=
      [.use (.both .fragments .helpers), .use (.messages "en"),
        .registerFragment "p" "[[@ hello ]], [[= helpers.f(who) ]]",
        .registerHelper "f" (jsonHelper fun _ => .ok (.text "you")),
        .addMessages "en" [("hello", "Hi")]]
    let e := (Engine.create 4).after ops
    (e.render 1000 (some "[[> p ]]!") (.object [("who", .null), ("extra", .bool true)])).1
        = (e.render 1000 (some "[[> p ]]!") (.object [("who", .null)])).1
      ∧ (e.render 1000 (some "[[> p ]]!") (.object [("who", .null)])).1 = .ok "Hi, you!" := by
  intro ops e
  have hops : ∀ op ∈ ops, op.LeavesScope :=
    List.forall_mem_cons.mpr ⟨rfl, List.forall_mem_cons.mpr ⟨rfl, List.forall_mem_cons.mpr ⟨trivial,
      List.forall_mem_cons.mpr ⟨isBlind_jsonHelper _, List.forall_mem_singleton.mpr trivial⟩⟩⟩⟩
  refine ⟨render_unmentioned 4 hops ?_ 1000 [("who", .null)] [] (.bool true), by decide +kernel⟩
  rintro source (heq | ⟨name, hget⟩)
  · cases heq
    decide +kernel
  · have hget : lookupName name [("p", "[[@ hello ]], [[= helpers.f(who) ]]")] = some source := hget
    simp only [lookupName] at hget
    split at hget
    · cases hget
      decide +kernel
    · cases hget

/-- A marker without any name is escaped by a function that a member of the data hides. -/
theorem render_hidden_escape :
    tokenize "[[= 1 ]]" = [.escaped "1"]
      ∧ ((Engine.create 4).render 1000 (some "[[= 1 ]]") (.object [])).1 = .ok "1"
      ∧ ((Engine.create 4).render 1000 (some "[[= 1 ]]") (.object [("escapeHTML", .null)])).1
        = .error (.render (.notCallable "null")) := by
  refine ⟨by decide +kernel, by decide +kernel, by decide +kernel⟩

end Stencil
