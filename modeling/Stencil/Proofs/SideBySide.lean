import Stencil.Engine.Render
import Stencil.Proofs.Alike

/-!
# Engines side by side

Two engines with one setting run the same routines on two stores.  Whether they go on alike depends
on how the stores belong together, and that is for each use to say: `Connection` collects what a
relation between stores must keep, and everything an engine does in a run then keeps it.

* `Connection` — a relation between stores, and the ways in which runs may halt;
* `Connection.Runs` — a run that takes connected stores to connected stores, with one result;
* `Connection.runs_of_alike` — steps of routines are such runs if their requests are;
* `Connection.Serves` — what the connection must know about compiling for a setting;
* `Connection.Serves.includeFragment`, `Connection.Serves.renderTop` — inclusions and renders.
-/

namespace Stencil

open Routine

/-- A relation between the stores of two engines that share a setting. -/
structure Connection where
  /-- The two stores belong together. -/
  stores : Store → Store → Prop
  /-- A run may halt in this way. -/
  halts : Halt → Prop
  /-- The stores have one heap. -/
  heap_eq : ∀ {a b : Store}, stores a b → a.heap = b.heap
  /-- The heap may change. -/
  change : ∀ {a b : Store} (h : Heap), stores a b → stores { a with heap := h } { b with heap := h }
  /-- Runs may give up. -/
  endless : halts .endless
  /-- Runs may fail as routines do. -/
  ordinary : ∀ f : Failure, f.isOrdinary = true → halts (.failed f)

namespace Connection

variable {C : Connection} {α β : Type}

/-- Two acts came out alike: with one value or with one error, which has the property. -/
inductive Agree {ε : Type} (C : Connection) (H : ε → Prop) (P : α → Prop) :
    EStateM.Result ε Store α → EStateM.Result ε Store α → Prop where
  | ok {a : α} {s t : Store} (ha : P a) (hs : C.stores s t) : Agree C H P (.ok a s) (.ok a t)
  | error {h : ε} {s t : Store} (hh : H h) (hs : C.stores s t) :
    Agree C H P (.error h s) (.error h t)

/-- The run comes out alike on connected stores, and halts only as it may. -/
def Runs (C : Connection) (P : α → Prop) (m : Run α) : Prop :=
  ∀ s t : Store, C.stores s t → C.Agree C.halts P (m s) (m t)

/-- A run whose value may be any. -/
abbrev RunsAny (C : Connection) (m : Run α) : Prop := C.Runs (fun _ => True) m

/-! ### Steps -/

theorem runs_pure {P : α → Prop} {a : α} (ha : P a) : C.Runs P (Pure.pure a : Run α) := by
  intro s t hs
  exact .ok ha hs

theorem runs_fail {P : α → Prop} {f : Failure} (hf : C.halts (.failed f)) :
    C.Runs P (Run.fail f : Run α) := by
  intro s t hs
  exact .error hf hs

theorem runs_endless {P : α → Prop} : C.Runs P (Run.endless : Run α) := by
  intro s t hs
  exact .error C.endless hs

theorem runs_make {P : α → Prop} {f : Heap → α × Heap} (ha : ∀ h, P (f h).1) :
    C.Runs P (Run.make f) := by
  intro s t hs
  have hmake (r : Store) : Run.make f r = .ok (f r.heap).1 { r with heap := (f r.heap).2 } := rfl
  rw [hmake, hmake, C.heap_eq hs]
  exact .ok (ha _) (C.change _ hs)

theorem Runs.bind {P : α → Prop} {Q : β → Prop} {m : Run α} {f : α → Run β}
    (hm : C.Runs P m) (hf : ∀ a, P a → C.Runs Q (f a)) : C.Runs Q (m >>= f) := by
  intro s t hs
  have h := hm s t hs
  generalize hx : m s = x at h
  generalize hy : m t = y at h
  cases h with
  | ok ha hs' =>
    rw [run_bind_ok hx, run_bind_ok hy]
    exact hf _ ha _ _ hs'
  | error hh hs' =>
    rw [run_bind_error hx, run_bind_error hy]
    exact .error hh hs'

theorem Runs.weaken {P Q : α → Prop} {m : Run α} (hm : C.Runs P m)
    (h : ∀ a, P a → Q a) : C.Runs Q m := by
  intro s t hs
  have hst := hm s t hs
  generalize m s = x at hst
  generalize m t = y at hst
  cases hst with
  | ok ha hs' => exact .ok (h _ ha) hs'
  | error hh hs' => exact .error hh hs'

/-- The values of a list of runs are as many as the runs. -/
theorem runs_mapM {f : α → Run β} (h : ∀ a, C.RunsAny (f a)) (as : List α) :
    C.Runs (fun bs => bs.length = as.length) (as.mapM f) := by
  induction as with
  | nil => exact runs_pure rfl
  | cons a as ih =>
    rw [List.mapM_cons]
    refine (h a).bind fun b _ => ih.bind fun bs hbs => runs_pure ?_
    rw [List.length_cons, List.length_cons, hbs]

/-- Steps of a routine come out alike if what it asks for does. -/
theorem runs_of_alike {ask : Service → List Value → Run Value}
    (hask : ∀ service args, C.RunsAny (ask service args)) {m m' : Run α}
    (h : Alike ask ask m m') : C.RunsAny m := by
  induction h with
  | pure a => exact runs_pure trivial
  | bind _ _ ihm ihf => exact ihm.bind fun a _ => ihf a
  | make f => exact runs_make fun _ => trivial
  | fail f hf => exact runs_fail (C.ordinary f hf)
  | endless => exact runs_endless
  | ask service args => exact hask service args

/-- Steps that no surroundings are asked for come out alike. -/
theorem runs_steps {m : Run α} (h : ∀ ask, Alike ask ask m m) : C.RunsAny m :=
  runs_of_alike (fun _ _ => runs_endless) (h fun _ _ => Run.endless)

theorem runs_textOf (v : Value) : C.RunsAny (Run.textOf v) := runs_steps fun _ => .textOf v

theorem runs_attempt {f : Heap → Except Failure α × Heap}
    (h : ∀ heap e, (f heap).1 = .error e → C.halts (.failed e)) : C.RunsAny (Run.attempt f) := by
  refine Runs.bind (P := fun r => ∀ e, r = .error e → C.halts (.failed e))
    (runs_make h) fun r hr => ?_
  cases r with
  | ok a => exact runs_pure trivial
  | error e => exact runs_fail (hr e rfl)

theorem runs_tryCatch {m : Run α} {handle : Halt → Run α} (hm : C.RunsAny m)
    (hh : ∀ halt, C.halts halt → C.RunsAny (handle halt)) : C.RunsAny (tryCatch m handle) := by
  intro s t hs
  have h := hm s t hs
  generalize hx : m s = x at h
  generalize hy : m t = y at h
  cases h with
  | ok ha hs' =>
    rw [run_tryCatch_ok hx, run_tryCatch_ok hy]
    exact .ok ha hs'
  | error hhalt hs' =>
    rw [run_tryCatch_error hx, run_tryCatch_error hy]
    exact hh _ hhalt _ _ hs'

/-! ### What routines ask for -/

/-- The routine takes as many arguments as the setting has for it, or may fail for that. -/
def Fits (C : Connection) (s : Setting) (routine : Compiled) : Prop :=
  2 + s.hooks.providers.length ≠ routine.arity →
    C.halts (.failed (.arity routine.arity (2 + s.hooks.providers.length)))

/-- What a connection must know to serve runs of a setting. -/
structure Serves (C : Connection) (s : Setting) : Prop where
  /-- Compiling comes out alike, and the source of a fragment may have the fault. -/
  compile : ∀ template a b, C.stores a b →
    C.Agree (fun stop => ∀ e, stop = .fault e → C.halts (.failed (.fragmentSource e))) (C.Fits s)
      (s.compile template a) (s.compile template b)
  /-- A fragment may be missing. -/
  noFragment : ∀ name, C.halts (.failed (.noFragment name))
  /-- Fragments may be nested too deep. -/
  fragmentDepth : ∀ name, C.halts (.failed (.fragmentDepth name))
  /-- The helpers may fail as they do. -/
  helper : ∀ code ∈ s.codes, ∀ args h e, (code args h).1 = .error e → C.halts (.failed e)

theorem runs_provideAll (s : Setting) :
    C.Runs (fun vs => vs.length = s.hooks.providers.length) s.provideAll := by
  refine runs_mapM (fun p => ?_) s.hooks.providers
  cases p with
  | constant v => exact runs_pure trivial
  | helpers => exact runs_steps fun _ => .newObject _
  | custom f => exact runs_steps fun _ => .make f

theorem runs_fillMessage (message : String) (v : Option Value) :
    C.RunsAny (Setting.fillMessage message v) := by
  simp only [Setting.fillMessage]
  split
  · refine Runs.bind (P := fun _ => True) (runs_steps fun _ => .heap) fun h _ => ?_
    refine ((runs_mapM (fun part => ?_) _).weaken fun _ _ => trivial).bind fun _ _ =>
      runs_pure trivial
    cases part with
    | inl c => exact runs_pure trivial
    | inr word =>
      rw [Setting.placeholderText]
      split
      · exact (runs_textOf _).bind fun _ _ => runs_pure trivial
      · exact runs_pure trivial
  · exact runs_pure trivial

theorem runs_firstText (args : List Value) : C.RunsAny (Setting.firstText args) := by
  cases args with
  | nil => exact runs_pure trivial
  | cons v args => exact runs_textOf v

theorem runs_hidingFailure {m : Run String} (hm : C.RunsAny m) :
    C.RunsAny (Setting.hidingFailure m) := by
  refine runs_tryCatch hm ?_
  intro halt hhalt
  cases halt with
  | failed f =>
    dsimp only
    split
    · exact runs_fail hhalt
    · exact runs_pure trivial
  | endless => exact runs_endless

section

variable {s : Setting}
  (hhelper : ∀ code ∈ s.codes, ∀ args h e, (code args h).1 = .error e → C.halts (.failed e))
include hhelper

/-- What a routine asks for comes out alike if fragments do. -/
theorem runs_perform {fragment : String → Run String} (hf : ∀ name, C.RunsAny (fragment name))
    (service : Service) (args : List Value) : C.RunsAny (s.perform fragment service args) := by
  simp only [Setting.perform]
  split
  · exact (runs_textOf _).bind fun _ _ => runs_pure trivial
  · exact (runs_firstText args).bind fun name _ => (hf name).bind fun _ _ => runs_pure trivial
  · exact (runs_hidingFailure (hf _)).bind fun _ _ => runs_pure trivial
  · exact runs_pure trivial
  · exact (runs_firstText args).bind fun key _ => (runs_fillMessage _ _).bind fun _ _ =>
      runs_pure trivial
  · split
    · rename_i code hcode
      refine runs_attempt fun h e he => hhelper code ?_ _ h e he
      exact Array.mem_of_getElem? hcode
    · exact runs_pure trivial

/-- Running a routine comes out alike if fragments do. -/
theorem runs_invoke (bound : Nat) {fragment : String → Run String}
    (hf : ∀ name, C.RunsAny (fragment name)) {routine : Compiled} (hr : C.Fits s routine)
    (data : Value) : C.RunsAny (s.invoke bound fragment routine data) := by
  refine (runs_provideAll s).bind ?_
  intro vs hvs
  dsimp only
  split
  · rename_i hne
    have hlen : (data :: s.escape :: vs).length = 2 + s.hooks.providers.length := by
      rw [List.length_cons, List.length_cons, hvs]
      omega
    rw [hlen] at hne ⊢
    exact runs_fail (hr hne)
  · refine Runs.bind (P := fun _ => True) ?_ fun v _ => runs_textOf v
    exact runs_of_alike (runs_perform hhelper hf) (.programRun _ _ _ _ _)

end

namespace Serves

variable {s : Setting} (hC : C.Serves s)
include hC

/-- Compiling a template while a routine runs comes out alike. -/
theorem compileNested (template : String) : C.Runs (C.Fits s) (s.compileNested template) := by
  intro a b hab
  have h := hC.compile template a b hab
  simp only [Setting.compileNested]
  generalize s.compile template a = x at h
  generalize s.compile template b = y at h
  cases h with
  | ok hr hs => exact .ok hr hs
  | @error stop _ _ hstop hs =>
    cases stop with
    | fault e => exact .error (hstop e rfl) hs
    | exhausted => exact .error C.endless hs

/-- Rendering a fragment comes out alike. -/
theorem includeFragment (bound : Nat) (data : Value) (levels : Nat) (name : String) :
    C.RunsAny (s.includeFragment bound data levels name) := by
  induction levels generalizing name with
  | zero =>
    rw [Setting.includeFragment]
    split
    · exact runs_fail (hC.noFragment name)
    · exact runs_fail (hC.fragmentDepth name)
  | succ levels ih =>
    rw [Setting.includeFragment]
    split
    · exact runs_fail (hC.noFragment name)
    · dsimp only [Setting.renderNested]
      split
      · exact runs_pure trivial
      · exact (hC.compileNested _).bind fun routine hr => runs_invoke hC.helper bound ih hr data

/-- Running a routine at the top comes out alike. -/
theorem renderTop (bound : Nat) {routine : Compiled} (hr : C.Fits s routine) (data : Value) :
    C.RunsAny (s.renderTop bound routine data) :=
  runs_invoke hC.helper bound (hC.includeFragment bound data nestingLimit) hr data

end Serves

end Connection

/-! ### What runs leave as it is -/

namespace Engine

theorem setting_performRun {α : Type} (e : Engine) (run : Run α) :
    (e.performRun run).2.setting = e.setting := by
  rw [performRun]
  split <;> rfl

theorem setting_compile (e : Engine) (template : String) :
    (e.compile template).2.setting = e.setting := by
  rw [compile]
  split <;> rfl

theorem setting_renderValue (e : Engine) (bound : Nat) (template : Option String) (v : Value) :
    (e.renderValue bound template v).2.setting = e.setting := by
  cases template with
  | none => rfl
  | some template =>
    have hcompile := setting_compile e template
    rw [renderValue]
    split
    · rfl
    · generalize e.compile template = r at hcompile
      obtain ⟨r, e'⟩ := r
      cases r with
      | error err => exact hcompile
      | ok routine =>
        have hrun := setting_performRun e' (e'.setting.renderTop bound routine v)
        dsimp only
        generalize e'.performRun (e'.setting.renderTop bound routine v) = r at hrun
        obtain ⟨r, e''⟩ := r
        cases r <;> exact hrun.trans hcompile

theorem setting_render (e : Engine) (bound : Nat) (template : Option String) (data : Json) :
    (e.render bound template data).2.setting = e.setting :=
  setting_renderValue _ _ _ _

end Engine

namespace Connection

variable {C : Connection} {α : Type}

/-! ### Engines -/

/-- Two engines with one setting on connected stores. -/
structure Engines (C : Connection) (e f : Engine) : Prop where
  /-- They have one setting. -/
  setting : e.setting = f.setting
  /-- Their stores belong together. -/
  stores : C.stores e.store f.store

/-- Two answers of engines came out alike: a value or an error with the property. -/
structure Joint {ε : Type} (C : Connection) (H : ε → Prop) (P : α → Prop)
    (r r' : Except ε α × Engine) : Prop where
  /-- They are one answer. -/
  answer : r.1 = r'.1
  /-- A value has the property. -/
  value : ∀ a, r.1 = .ok a → P a
  /-- An error has the property. -/
  error : ∀ h, r.1 = .error h → H h
  /-- The engines go on together. -/
  engines : C.Engines r.2 r'.2

theorem Joint.ofValue {ε : Type} {H : ε → Prop} {P : α → Prop} {a : α} {e f : Engine} (ha : P a)
    (h : C.Engines e f) : C.Joint H P (.ok a, e) (.ok a, f) := by
  refine ⟨rfl, fun b hb => ?_, nofun, h⟩
  cases hb
  exact ha

theorem Joint.ofError {ε : Type} {H : ε → Prop} {P : α → Prop} {err : ε} {e f : Engine}
    (herr : H err) (h : C.Engines e f) : C.Joint H P (.error err, e) (.error err, f) := by
  refine ⟨rfl, nofun, fun b hb => ?_, h⟩
  cases hb
  exact herr

/-- A render may end in the error. -/
def Reports (C : Connection) (err : Error) : Prop := ∀ f, err = .render f → C.halts (.failed f)

namespace Engines

variable {e f : Engine} (h : C.Engines e f)
include h

/-- A run on both engines comes out alike. -/
theorem performRun {m : Run α} (hm : C.RunsAny m) :
    C.Joint C.halts (fun _ => True) (e.performRun m) (f.performRun m) := by
  have hst := hm _ _ h.stores
  simp only [Engine.performRun]
  rw [EStateM.run, EStateM.run]
  generalize m e.store = x at hst
  generalize m f.store = y at hst
  cases hst with
  | ok ha hs => exact .ofValue ha ⟨h.setting, hs⟩
  | error hh hs => exact .ofError hh ⟨h.setting, hs⟩

/-- Compiling on both engines comes out alike. -/
theorem compile (hC : C.Serves e.setting) (template : String) :
    C.Joint C.Reports (C.Fits e.setting) (e.compile template) (f.compile template) := by
  have hst := hC.compile template _ _ h.stores
  simp only [Engine.compile]
  rw [← h.setting, EStateM.run, EStateM.run]
  generalize e.setting.compile template e.store = x at hst
  generalize e.setting.compile template f.store = y at hst
  cases hst with
  | ok ha hs => exact .ofValue ha ⟨rfl, hs⟩
  | @error stop _ _ _ hs =>
    cases stop with
    | fault fault => exact .ofError nofun ⟨rfl, hs⟩
    | exhausted => exact .ofError nofun ⟨rfl, hs⟩

/-- A render on both engines comes out alike. -/
theorem renderValue (hC : C.Serves e.setting) (bound : Nat) (template : Option String)
    (data : Value) :
    C.Joint C.Reports (fun _ => True) (e.renderValue bound template data)
      (f.renderValue bound template data) := by
  cases template with
  | none => exact .ofError nofun h
  | some template =>
    simp only [Engine.renderValue]
    split
    · exact .ofError nofun h
    · have hset := Engine.setting_compile e template
      obtain ⟨hanswer, hfits, hreports, hengines⟩ := h.compile hC template
      generalize e.compile template = x at *
      generalize f.compile template = y at *
      obtain ⟨r, e'⟩ := x
      obtain ⟨r', f'⟩ := y
      dsimp only at *
      subst hanswer
      rw [← hset] at hC hfits
      cases r with
      | error err => exact .ofError (hreports err rfl) hengines
      | ok routine =>
        have hrun := hengines.performRun (hC.renderTop bound (hfits routine rfl) data)
        dsimp only
        rw [← hengines.setting]
        generalize e'.performRun _ = x at hrun
        generalize f'.performRun _ = y at hrun
        obtain ⟨hanswer, -, hhalts, hafter⟩ := hrun
        obtain ⟨r, e''⟩ := x
        obtain ⟨r', f''⟩ := y
        dsimp only at *
        subst hanswer
        cases r with
        | ok text => exact .ofValue trivial hafter
        | error halt =>
          refine .ofError (fun failure hf => ?_) hafter
          cases halt with
          | failed failure' =>
            cases hf
            exact hhalts _ rfl
          | endless => cases hf

end Engines

end Connection

end Stencil
