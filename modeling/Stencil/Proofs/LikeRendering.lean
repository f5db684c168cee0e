import Stencil.Engine.Render
import Stencil.Proofs.LikeEvaluation

/-!
# Renders that respect a likeness

What an engine does for the routines that it runs, and the run of a whole routine in it.  Two
engines that provide the same, and whose routines do the same, render the same.

* `Likeness.Settles.hidingFailure`, `Likeness.Serves.perform` — what routines ask for;
* `Likeness.Settles.invoke` — a routine with all its arguments;
* `Likeness.Settles.includeFragment` — fragments, whichever way their routines are taken as the
  same;
* `Likeness.Settles.performRun` — runs that come to the same, on two engines.
-/

namespace Stencil.Routine.Likeness

open Filter

variable {L : Likeness} {ι : Type} {F : Filter ι} {w base : L.Stage} {s s' : Setting}

/-! ### What routines ask for -/

/-- A failure that may be hidden is hidden on both sides. -/
theorem Settles.hidingFailure (hexcused : ∀ f, L.excused f → f.isProtocol = true)
    {m m' : ι → Run String} (h : L.Settles F w L.Same m m') :
    L.Settles F w L.Same (fun i => Setting.hidingFailure (m i))
      (fun i => Setting.hidingFailure (m' i)) := by
  intro w₁ hw₁ t t' ht
  rcases h w₁ hw₁ t t' ht with ⟨f, u, hf, hu⟩ | ⟨r, r', hr, ho⟩
  · refine .inl ⟨f, u, hf, hu.mono fun i hi => (run_tryCatch_error hi).trans ?_⟩
    simp only [hexcused f hf, if_true]
    rfl
  cases ho with
  | ok later stores h =>
    exact .inr ⟨_, _, hr.mono fun i hr => ⟨run_tryCatch_ok hr.1, run_tryCatch_ok hr.2⟩,
      .ok later stores h⟩
  | endless later stores h =>
    exact .inr ⟨_, _, hr.mono fun i hr => ⟨run_tryCatch_error hr.1, run_tryCatch_error hr.2⟩,
      .endless later stores h⟩
  | @failed w₂ u u' f later stores =>
    refine .inr ⟨_, _, hr.mono fun i hr =>
      ⟨run_tryCatch_error hr.1, run_tryCatch_error hr.2⟩, ?_⟩
    dsimp only
    split
    · exact .failed f later stores
    · exact .ok later stores rfl

variable [L.Lawful]

namespace Settles

theorem firstText {args args' : List Value} (h : L.Rows w args args') :
    L.Settles F w L.Same (fun _ => Setting.firstText args) (fun _ => Setting.firstText args') := by
  cases h with
  | nil => exact same ""
  | cons hv _ => exact textOf hv

theorem placeholderText {ms ms' : Roster Value} (h : L.Named w ms.entries ms'.entries)
    (part : Char ⊕ String) :
    L.Settles F w L.Same (fun _ => Setting.placeholderText ms part)
      (fun _ => Setting.placeholderText ms' part) := by
  cases part with
  | inl c => exact same _
  | inr word =>
    have hfound : Option.Rel (L.Values w) (ms.get? word) (ms'.get? word) := h.lookup word
    simp only [Setting.placeholderText]
    generalize ms.get? word = v at hfound ⊢
    generalize ms'.get? word = v' at hfound ⊢
    cases hfound with
    | none => exact same _
    | some hv => exact (textOf hv).bind fun _ _ _ _ htext => htext ▸ same _

theorem fillMessage (message : String) {v v' : Option Value} (h : Option.Rel (L.Values w) v v') :
    L.Settles F w L.Same (fun _ => Setting.fillMessage message v)
      (fun _ => Setting.fillMessage message v') := by
  cases h with
  | none => exact same message
  | some hv =>
    cases hv with
    | object hp =>
      refine heap.bind fun w₁ hw₁ h h' hh => ?_
      refine Settles.bind (mapSame (R := Eq) (List.forall₂_refl (Template.placeholders message))
        (f := fun _ => Setting.placeholderText (h.members _))
        (g := fun _ => Setting.placeholderText (h'.members _)) ?_)
        fun w₂ _ texts texts' htexts => ?_
      · rintro part _ rfl
        exact placeholderText (Lawful.members hh (L.object_mono hw₁ hp)) part
      · obtain rfl : texts = texts' := htexts
        exact same _
    | undefined | null | bool | number | text | array | native | closure => exact same message

end Settles

/-- **Engines serve alike** if they have the same messages, and their fragments and helpers are
alike. -/
theorem Serves.perform {fragment fragment' : ι → String → Run String}
    (hcatalog : s.catalog = s'.catalog)
    (hfragment : ∀ w, base ≤ w → ∀ name,
      L.Settles F w L.Same (fun i => fragment i name) (fun i => fragment' i name))
    (hchosen : ∀ w, base ≤ w → ∀ name,
      L.Settles F w L.Same (fun i => Setting.hidingFailure (fragment i name))
        (fun i => Setting.hidingFailure (fragment' i name)))
    (hhelper : ∀ w, base ≤ w → ∀ slot args args', L.Rows w args args' →
      L.Settles F w L.Values (fun i => s.perform (fragment i) (.helper slot) args)
        (fun i => s'.perform (fragment' i) (.helper slot) args')) :
    L.Serves F base (fun i => s.perform (fragment i)) (fun i => s'.perform (fragment' i)) := by
  intro w hw service args args' hargs
  -- What is answered with a text that is the same on both sides.
  have answer {w : L.Stage} {m m' : ι → Run String} (h : L.Settles F w L.Same m m') :
      L.Settles F w L.Values (fun i => do return .text (← m i))
        (fun i => do return .text (← m' i)) :=
    h.bind fun _ _ _ _ htext => htext ▸ .value (.text _)
  cases service with
  | escape =>
    exact (Settles.textOf (hargs.argument 0)).bind fun _ _ _ _ htext => htext ▸ .value (.text _)
  | fragment =>
    refine (Settles.firstText hargs).bind fun w₁ hw₁ name name' hname => ?_
    obtain rfl : name = name' := hname
    exact answer (hfragment w₁ (hw.trans hw₁) name)
  | chosenFragment =>
    cases hargs with
    | nil => exact .value (.text "")
    | cons hv _ =>
      cases hv with
      | text name => exact answer (hchosen w hw name)
      | undefined | null | bool | number | array | object | native | closure =>
        exact .value (.text "")
  | message =>
    refine (Settles.firstText hargs).bind fun w₁ hw₁ key key' hkey => ?_
    obtain rfl : key = key' := hkey
    simp only [hcatalog]
    exact (Settles.fillMessage _ ((hargs.mono hw₁).getElem? 1)).bind fun _ _ _ _ htext =>
      htext ▸ .value (.text _)
  | helper slot => exact hhelper w hw slot args args' hargs

/-! ### Whole routines -/

/-- **Routines are invoked alike** if they have the same parameters, their arguments are alike, and
their statements are. -/
theorem Settles.invoke {fragment fragment' : ι → String → Run String} {b : ι → Nat}
    {routine routine' : Compiled} {data data' : Value} (hw : base ≤ w)
    (hescape : L.Values w s.escape s'.escape) (hdata : L.Values w data data')
    (hprovided : L.Settles F w L.Rows (fun _ => s.provideAll) (fun _ => s'.provideAll))
    (hparams : routine.program.params = routine'.program.params)
    (hstmts : List.Forall₂
      (L.Executes F base (fun i => s.perform (fragment i)) (fun i => s'.perform (fragment' i)) b
        callLimit) routine.program.body routine'.program.body)
    (hnumber : L.routine w routine.number routine'.number) :
    L.Settles F w L.Same (fun i => s.invoke (b i) (fragment i) routine data)
      (fun i => s'.invoke (b i) (fragment' i) routine' data') := by
  refine hprovided.bind fun w₁ hw₁ provided provided' h => ?_
  have hargs : L.Rows w₁ (data :: s.escape :: provided) (data' :: s'.escape :: provided') :=
    .cons (hdata.mono hw₁) (.cons (hescape.mono hw₁) h)
  have harity : routine.arity = routine'.arity := congrArg List.length hparams
  dsimp only
  rw [hargs.length_eq, harity]
  split
  · exact .fail _
  · refine (Settles.programRun (hw.trans hw₁) hparams hstmts (L.routine_mono hw₁ hnumber)
      hargs).bind fun w₂ _ v v' hv => ?_
    exact Settles.textOf hv

/-! ### Fragments -/

omit [L.Lawful] in
/-- **Fragments are rendered alike** if they are compiled alike, and the routines of their
templates are invoked alike wherever fragments are rendered alike. -/
theorem Settles.includeFragment {D : L.Stage → Value → Value → Prop}
    {R : String → L.Stage → Compiled → Compiled → Prop}
    (hD : ∀ {w w' : L.Stage} {v v' : Value}, w ≤ w' → D w v v' → D w' v v')
    (hfragments : s.fragments = s'.fragments)
    (hcompile : ∀ w, base ≤ w → ∀ name template,
      (s.fragments.getD .empty).get? name = some template →
      L.Settles F w (R template) (fun _ => s.compileNested template)
        (fun _ => s'.compileNested template))
    (bound : Nat)
    (hinvoke : ∀ w, base ≤ w → ∀ fragment fragment' : String → Run String,
      (∀ w', w ≤ w' → ∀ name,
        L.Settles F w' L.Same (fun _ => fragment name) (fun _ => fragment' name)) →
      ∀ name template routine routine' data data',
        (s.fragments.getD .empty).get? name = some template → R template w routine routine' →
        D w data data' →
        L.Settles F w L.Same (fun _ => s.invoke bound fragment routine data)
          (fun _ => s'.invoke bound fragment' routine' data'))
    (levels : Nat) {w : L.Stage} (hw : base ≤ w) {data data' : Value} (hdata : D w data data')
    (name : String) :
    L.Settles F w L.Same (fun _ => s.includeFragment bound data levels name)
      (fun _ => s'.includeFragment bound data' levels name) := by
  induction levels generalizing w name with
  | zero =>
    simp only [Setting.includeFragment, ← hfragments]
    cases (s.fragments.getD .empty).get? name with
    | none => exact .fail _
    | some template => exact .fail _
  | succ levels ih =>
    simp only [Setting.includeFragment, ← hfragments]
    cases htemplate : (s.fragments.getD .empty).get? name with
    | none => exact .fail _
    | some template =>
      dsimp only [Setting.renderNested]
      split
      · exact .same ""
      · refine (hcompile w hw name template htemplate).bind fun w₁ hw₁ routine routine' hr => ?_
        exact hinvoke w₁ (hw.trans hw₁) _ _
          (fun w₂ hw₂ name => ih (hw.trans (hw₁.trans hw₂)) (hD (hw₁.trans hw₂) hdata) name)
          name template routine routine' data data' htemplate hr (hD hw₁ hdata)

/-! ### Engines -/

omit [L.Lawful] in
/-- Runs that come to the same, on two engines, where nothing is excused. -/
theorem Settles.performRun (hexcused : ∀ f, ¬ L.excused f) {run run' : Run String}
    (h : L.Settles (Pure.pure ()) w L.Same (fun _ : Unit => run) fun _ => run') {e f : Engine}
    (hstores : L.stores w e.store f.store) :
    (e.performRun run).1 = (f.performRun run').1
      ∧ ∃ w', w ≤ w' ∧ L.stores w' (e.performRun run).2.store (f.performRun run').2.store := by
  have ho := h.outcome hexcused hstores
  rw [Engine.performRun, Engine.performRun, EStateM.run, EStateM.run]
  generalize run e.store = r at ho ⊢
  generalize run' f.store = r' at ho ⊢
  cases ho with
  | ok hw hs h => exact ⟨congrArg Except.ok h, _, hw, hs⟩
  | failed g hw hs => exact ⟨rfl, _, hw, hs⟩
  | endless hw hs _ => exact ⟨rfl, _, hw, hs⟩

end Stencil.Routine.Likeness
