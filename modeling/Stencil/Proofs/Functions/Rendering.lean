import Stencil.Proofs.Functions.Evaluation
import Stencil.Proofs.Kept

/-!
# Rendering makes functions of what is written

A routine may call helpers and include fragments, which are compiled and rendered in between.  If
the code behind the setting keeps to what was made, then so does all that a render does, whether it
fails or not.

* `Origins.HasSetting` — settings whose values have their origin in what was made, and whose code
  makes no function in another way;
* `Origins.Describes.compile` — a template that is compiled becomes a routine of a later stage;
* `HasSetting.serves` — what routines ask for, given how fragments are rendered;
* `HasSetting.includeFragment`, `HasSetting.renderTop` — fragments within fragments, and renders.
-/

namespace Stencil.Routine.Origins

variable {w w' : Origins} {s : Setting}

/-! ### Settings -/

/-- What the source of a value gives has its origin in what was made. -/
def HasProvider (w : Origins) : Provider → Prop
  | .constant v => w.Has v
  | .helpers => True
  | .custom make => w.Acts Has make

/-- So has what the code of a helper gives, if its arguments have. -/
def HasCode (w : Origins) (code : Helper) : Prop :=
  ∀ w', w ≤ w' → ∀ args, w'.HasAll args →
    w'.Acts (fun w'' answer => ∀ v, answer = .ok v → w''.Has v) (code args)

/-- The values of the setting have their origin in what was made, its code makes no function in
another way, and routines are numbered in the order in which they are compiled. -/
structure HasSetting (w : Origins) (s : Setting) : Prop where
  escape : w.Has s.escape
  providers : ∀ p ∈ s.hooks.providers, w.HasProvider p
  helpers : ∀ e ∈ (s.helpers.getD .empty).entries, w.Has e.2
  codes : ∀ code ∈ s.codes, w.HasCode code
  counts : ∀ source count, s.numbering source count = count

theorem Acts.mono (hw : w ≤ w') {α : Type} {P : Origins → α → Prop} {act : Heap → α × Heap}
    (h : w.Acts P act) : w'.Acts P act :=
  fun w'' hw' => h w'' (hw.trans hw')

theorem HasProvider.mono (hw : w ≤ w') {p : Provider} (h : w.HasProvider p) : w'.HasProvider p := by
  cases p with
  | constant v => exact Has.mono hw h
  | helpers => trivial
  | custom make => exact Acts.mono hw h

theorem HasCode.mono (hw : w ≤ w') {code : Helper} (h : w.HasCode code) : w'.HasCode code :=
  fun w'' hw' => h w'' (hw.trans hw')

theorem HasSetting.mono (hw : w ≤ w') (h : w.HasSetting s) : w'.HasSetting s where
  escape := h.escape.mono hw
  providers p hp := (h.providers p hp).mono hw
  helpers e he := (h.helpers e he).mono hw
  codes code hcode := (h.codes code hcode).mono hw
  counts := h.counts

/-! ### Compiling -/

/-- One more routine is numbered. -/
def andRoutine (w : Origins) (p : Program) : Origins := ⟨w.natives, w.routines ++ [p]⟩

theorem le_andRoutine (w : Origins) (p : Program) : w ≤ w.andRoutine p :=
  ⟨List.prefix_refl _, List.prefix_append _ _⟩

namespace Describes

variable {store : Store}

/-- The routine that is numbered next is one of those that were compiled. -/
theorem compiles_next (h : w.Describes store) (p : Program) :
    (w.andRoutine p).Compiles ⟨store.compiled, p.numbered⟩ := by
  refine ⟨p, ?_, rfl⟩
  show (w.routines ++ [p])[store.compiled]? = some p
  rw [h.routines, List.getElem?_concat_length]

/-- It is counted, whether it is kept or not. -/
theorem next (h : w.Describes store) (p : Program) :
    (w.andRoutine p).Describes { store with compiled := store.compiled + 1 } where
  heap := ⟨keeps_mono (w.le_andRoutine p) h.heap.keeps, h.heap.natives⟩
  routines := by
    show store.compiled + 1 = (w.routines ++ [p]).length
    rw [h.routines, List.length_append, List.length_singleton]
  kept template c hc := (h.kept template c hc).mono (w.le_andRoutine p)

/-- A routine that was compiled may be kept. -/
theorem insert (h : w.Describes store) (template : String) {c : Compiled} (hc : w.Compiles c) :
    w.Describes { store with cache := store.cache.insert template c } where
  heap := h.heap
  routines := h.routines
  kept other found hfound := by
    rcases Cache.get?_insert_cases hfound with ⟨-, rfl⟩ | hold
    · exact hc
    · exact h.kept other found hold

theorem clear (h : w.Describes store) :
    w.Describes { store with cache := store.cache.clear } where
  heap := h.heap
  routines := h.routines
  kept template c hc := by
    have hnone : store.cache.clear.get? template = none := Cache.get?_clear _ _
    cases hnone.symm.trans hc

theorem freshen (h : w.Describes store) (s : Setting) : w.Describes (s.freshen store) := by
  rw [Setting.freshen]
  split
  · exact h
  · exact ⟨h.heap, h.routines, h.clear.kept⟩

/-- **A template that is compiled becomes a routine of a later stage.** -/
theorem compile (h : w.Describes store) (hs : w.HasSetting s) (template : String) :
    (∃ c t w', s.compile template store = .ok c t ∧ w ≤ w' ∧ w'.Describes t ∧ w'.Compiles c)
      ∨ ∃ stop t, s.compile template store = .error stop t ∧ w.Describes t := by
  have hfresh := h.freshen s
  rw [Kept.compile_eq]
  generalize s.freshen store = store at hfresh ⊢
  cases hget : store.cache.get? template with
  | some c => exact .inl ⟨c, _, w, rfl, le_rfl, hfresh, hfresh.kept template c hget⟩
  | none =>
    cases parseProgram s.params (s.source template) with
    | error stop => exact .inr ⟨stop, _, rfl, hfresh⟩
    | ok p =>
      dsimp only
      rw [hs.counts]
      have hnext := hfresh.compiles_next p
      exact .inl ⟨_, _, _, rfl, w.le_andRoutine p, (hfresh.next p).insert template hnext, hnext⟩

end Describes

theorem HasSetting.compileNested (hs : w.HasSetting s) (template : String) :
    w.Traces Compiles (s.compileNested template) := by
  intro w' hw store hstore
  rw [Setting.compileNested]
  rcases hstore.compile (hs.mono hw) template with
    ⟨c, t, w'', heq, hlater, ht, hc⟩ | ⟨stop, t, heq, ht⟩
  · rw [heq]
    exact .ok hlater ht hc
  · rw [heq]
    cases stop with
    | fault e => exact .error le_rfl ht
    | exhausted => exact .error le_rfl ht

/-! ### What routines ask for -/

namespace Traces

/-- What is caught goes on where the failure left the store. -/
theorem tryCatch {α : Type} {P : Origins → α → Prop} {m : Run α} {handle : Halt → Run α}
    (hm : w.Traces P m) (hhandle : ∀ halt, w.Traces P (handle halt)) :
    w.Traces P (tryCatch m handle) := by
  intro w' hw store hstore
  have hfirst := hm w' hw store hstore
  cases hrun : m store with
  | ok a t =>
    rw [hrun] at hfirst
    rw [run_tryCatch_ok hrun]
    exact hfirst
  | error halt t =>
    rw [hrun] at hfirst
    rw [run_tryCatch_error hrun]
    cases hfirst with
    | @error w'' _ _ later ht => exact (hhandle halt w'' (hw.trans later) t ht).later later

theorem hidingFailure {m : Run String} (hm : w.Traces Any m) :
    w.Traces Any (Setting.hidingFailure m) := by
  refine hm.tryCatch fun halt => ?_
  cases halt with
  | endless => exact quiet fun _ _ => .halt _
  | failed f =>
    dsimp only
    split
    · exact quiet fun _ _ => .halt _
    · exact any

end Traces

theorem looks_placeholderText (members : Roster Value) (p : Char ⊕ String) :
    Looks (Setting.placeholderText members p) := by
  cases p with
  | inl c => exact .pure _
  | inr word =>
    rw [Setting.placeholderText]
    split
    · exact (Looks.textOf _).bind fun _ => .pure _
    · exact .pure _

theorem looks_firstText (args : List Value) : Looks (Setting.firstText args) := by
  cases args with
  | nil => exact .pure _
  | cons v vs => exact .textOf v

theorem traces_fillMessage (message : String) (argument : Option Value) :
    w.Traces Any (Setting.fillMessage message argument) := by
  unfold Setting.fillMessage
  split
  · refine .look .heap fun h => ?_
    refine (Traces.mapM (Q := Any) (fun _ _ _ => trivial) fun p _ =>
      .looks (looks_placeholderText _ p)).bind fun _ _ _ _ => .any
  · exact .any

/-- **What a routine asks for keeps to what was made**, if fragments are rendered so. -/
theorem HasSetting.serves (hs : w.HasSetting s) {fragment : String → Run String}
    (hfragment : ∀ name, w.Traces Any (fragment name)) : w.Serves (s.perform fragment) := by
  intro service args w' hw hargs
  have hfragment (name : String) := (hfragment name).mono hw
  cases service with
  | escape => exact .look (.textOf _) fun _ => .pure fun _ _ => trivial
  | fragment =>
    refine .look (looks_firstText args) fun name => ?_
    exact (hfragment name).andThen fun _ => .pure fun _ _ => trivial
  | chosenFragment =>
    cases args with
    | nil => exact .pure fun _ _ => trivial
    | cons v vs =>
      cases v with
      | text name =>
        exact (hfragment name).hidingFailure.andThen fun _ => .pure fun _ _ => trivial
      | undefined | null | bool | number | array | object | native | closure =>
        exact .pure fun _ _ => trivial
  | message =>
    refine .look (looks_firstText args) fun key => ?_
    exact (traces_fillMessage _ _).andThen fun _ => .pure fun _ _ => trivial
  | helper slot =>
    rw [Setting.perform]
    cases hcode : s.codes[slot]? with
    | none => exact .pure fun _ _ => trivial
    | some code =>
      have hhas := hs.codes code (Array.mem_of_getElem? hcode)
      refine (Traces.make (hhas w' hw args hargs)).bind fun w'' _ answer hanswer => ?_
      cases answer with
      | ok v => exact .value (hanswer v rfl)
      | error e => exact .fail e

/-! ### Renders -/

theorem HasSetting.provide (hs : w.HasSetting s) {p : Provider} (hp : p ∈ s.hooks.providers) :
    w.Traces Has (s.provide p) := by
  have hp := hs.providers p hp
  cases p with
  | constant v => exact .value hp
  | helpers =>
    exact .quiet fun w' hw => .make fun g hg =>
      hg.newObject fun e he => (hs.helpers e he).mono hw
  | custom make => exact .make hp

/-- A routine that was compiled is run with the data. -/
theorem HasSetting.invoke (hs : w.HasSetting s) {fragment : String → Run String}
    (hfragment : ∀ name, w.Traces Any (fragment name)) {c : Compiled} (hc : w.Compiles c)
    {data : Value} (hdata : w.Has data) (bound : Nat) :
    w.Traces Any (s.invoke bound fragment c data) := by
  refine (Traces.mapM Has.mono fun p hp => hs.provide hp).bind fun w' hw values hvalues => ?_
  dsimp only
  split
  · exact .fail _
  · have hargs : w'.HasAll (data :: s.escape :: values) :=
      .cons (hdata.mono hw) (.cons (hs.escape.mono hw) hvalues)
    have hserves := (hs.serves hfragment).mono hw
    exact (Traces.run hserves (hc.mono hw) bound _ hargs).bind fun _ _ v _ => .looks (.textOf v)

/-- A fragment within which others may nest. -/
theorem HasSetting.includeFragment (hs : w.HasSetting s) {data : Value} (hdata : w.Has data)
    (bound levels : Nat) (name : String) :
    w.Traces Any (s.includeFragment bound data levels name) := by
  induction levels generalizing name with
  | zero =>
    rw [Setting.includeFragment]
    split
    · exact .fail _
    · exact .fail _
  | succ levels ih =>
    rw [Setting.includeFragment]
    split
    · exact .fail _
    · dsimp only [Setting.renderNested]
      split
      · exact .any
      · exact (hs.compileNested _).bind fun w' hw c hc =>
          (hs.mono hw).invoke (fun name => (ih name).mono hw) hc (hdata.mono hw) bound

/-- **A render keeps to what was made.** -/
theorem HasSetting.renderTop (hs : w.HasSetting s) {c : Compiled} (hc : w.Compiles c) {data : Value}
    (hdata : w.Has data) (bound : Nat) : w.Traces Any (s.renderTop bound c data) :=
  hs.invoke (hs.includeFragment hdata bound nestingLimit) hc hdata bound

end Stencil.Routine.Origins
