import Stencil.Proofs.LikeRendering
import Stencil.Proofs.Moving

/-!
# Routines on other ground

A routine works with what the engine gives it: the function that escapes, the values of the
additional parameters, the data, and what helpers give back.  If nothing of that was built before,
but for native functions, the routine does the same on every ground.

* `Value.IsCommon` — values that were not built, or are known on every ground;
* `Maker.IsPortable`, `Helper.IsPortable` — sources of values, and helpers, that do the same on
  every ground, such as those that work with JSON values;
* `Setting.IsPortable` — settings that give nothing else to routines;
* `settles_includeFragment`, `settles_invoke_portable` — routines on two grounds come to the same.
-/

namespace Stencil

open Routine Likeness

/-! ### Values on every ground -/

/-- The value is no array, no object and no function of a routine; a native function was made by
one of the first acts. -/
def Routine.Value.IsCommon (shared : Nat) : Value → Prop
  | .native _ _ identity => identity < shared
  | .array _ => False
  | .object _ => False
  | .closure _ _ _ _ _ => False
  | _ => True

namespace Routine.Value.IsCommon

variable {v : Value} {shared shared' : Nat}

theorem mono (hle : shared ≤ shared') (h : v.IsCommon shared) : v.IsCommon shared' := by
  cases v with
  | native name code identity => exact h.trans_le hle
  | undefined | null | bool | number | text | array | object | closure => exact h

theorem values {G : Grounds} {w : Amount} (h : v.IsCommon G.shared) : G.kinship.Values w v v := by
  cases v with
  | undefined => exact .undefined
  | null => exact .null
  | bool b => exact .bool b
  | number x => exact .number x
  | text s => exact .text s
  | native name code identity => exact .native name code (.inl ⟨rfl, h⟩)
  | array | object | closure => exact h.elim

end Routine.Value.IsCommon

/-- A source of values that makes the same on every ground. -/
def Maker.IsPortable (make : Heap → Value × Heap) : Prop :=
  ∀ (G : Grounds) (w : Amount) (h h' : Heap), G.Built w h h' →
    ∃ w', w ≤ w' ∧ G.kinship.Values w' (make h).1 (make h').1 ∧ G.Built w' (make h).2 (make h').2

/-- A helper that makes the same of the same arguments on every ground, or fails alike. -/
def Helper.IsPortable (code : Helper) : Prop :=
  ∀ (G : Grounds) (w : Amount) (args args' : List Value) (h h' : Heap),
    G.kinship.Rows w args args' → G.Built w h h' → ∃ w', w ≤ w'
      ∧ G.Built w' (code args h).2 (code args' h').2
      ∧ ((∃ v v', (code args h).1 = .ok v ∧ (code args' h').1 = .ok v' ∧ G.kinship.Values w' v v')
        ∨ ∃ f, (code args h).1 = .error f ∧ (code args' h').1 = .error f)

/-- A JSON value is made anew on every ground. -/
theorem isPortable_ofJson (json : Json) : Maker.IsPortable fun h => h.ofJson json :=
  fun G _ _ _ hb => Settles.ofJson_rel (L := G.moving fun _ _ => True) hb json

/-- A helper that computes a JSON value, or a failure, from the JSON values of its arguments. -/
def jsonHelper (f : List (Option (Option Json)) → Except Failure Json) : Helper := fun args h =>
  match f (args.map h.toJson) with
  | .ok json => (.ok (h.ofJson json).1, (h.ofJson json).2)
  | .error e => (.error e, h)

/-- The value of a parameter is known on every ground, or is made anew. -/
def Provider.IsPortable (shared : Nat) : Provider → Prop
  | .constant v => v.IsCommon shared
  | .helpers => True
  | .custom make => Maker.IsPortable make

theorem Provider.IsPortable.mono {p : Provider} {shared shared' : Nat} (hle : shared ≤ shared')
    (h : p.IsPortable shared) : p.IsPortable shared' := by
  cases p with
  | constant v => exact Value.IsCommon.mono hle h
  | helpers => trivial
  | custom make => exact h

/-- All that routines are given is known on every ground, or is made anew. -/
structure Setting.IsPortable (shared : Nat) (s : Setting) : Prop where
  escape : s.escape.IsCommon shared
  providers : ∀ p ∈ s.hooks.providers, p.IsPortable shared
  helpers : ∀ e ∈ (s.helpers.getD .empty).entries, e.2.IsCommon shared
  codes : ∀ code ∈ s.codes, Helper.IsPortable code

/-! ### Routines -/

section Routines

variable {s : Setting} {G : Grounds} {kept : Store → Store → Prop}
  {ι : Type} {F : Filter ι}

/-- The values of the additional parameters are the same. -/
theorem settles_provideAll_portable (hs : s.IsPortable G.shared) (w : Amount) :
    (G.moving kept).Settles F w (G.moving kept).Rows (fun _ => s.provideAll)
      (fun _ => s.provideAll) := by
  refine Settles.mapValues (R := fun p p' => p = p' ∧ p ∈ s.hooks.providers)
    (f := fun _ => s.provide) (List.forall₂_same.mpr fun p hp => ⟨rfl, hp⟩) ?_
  rintro p _ ⟨rfl, hp⟩
  have hportable := hs.providers p hp
  cases p with
  | constant v => exact .value (Value.IsCommon.values hportable)
  | helpers =>
    let make : Run Value := Run.make fun h => h.newObject (s.helpers.getD .empty)
    show (G.moving kept).Settles F w (G.moving kept).Values (fun _ => make) fun _ => make
    refine Settles.make fun w₁ _ h h' hb => ?_
    have hnamed : G.kinship.Named w₁ (s.helpers.getD .empty).entries
        (s.helpers.getD .empty).entries :=
      List.forall₂_same.mpr fun e he => ⟨rfl, (hs.helpers e he).values⟩
    exact hb.newObject hnamed
  | custom make =>
    exact Settles.make (L := G.moving kept) fun w₁ _ h h' hb => hportable G w₁ h h' hb

/-- What routines ask for is answered alike if fragments are rendered alike. -/
theorem serves_portable (hs : s.IsPortable G.shared) {w : Amount}
    {fragment fragment' : String → Run String}
    (hfragment : ∀ w', w ≤ w' → ∀ name,
      (G.moving kept).Settles F w' (G.moving kept).Same (fun _ => fragment name)
        (fun _ => fragment' name)) :
    (G.moving kept).Serves F w (fun _ => s.perform fragment) (fun _ => s.perform fragment') := by
  refine Serves.perform rfl hfragment (fun w' hw name => ?_) fun w' _ slot args args' hargs => ?_
  · exact Settles.hidingFailure (fun f hf => False.elim hf) (hfragment w' hw name)
  · simp only [Setting.perform]
    cases hcode : s.codes[slot]? with
    | none => exact .value .undefined
    | some code =>
      refine .attempt fun w₁ hw₁ h h' hb => ?_
      exact hs.codes code (Array.mem_of_getElem? hcode) G w₁ args args' h h'
        (Kinship.Rows.mono (K := G.kinship) hw₁ hargs) hb

/-- A routine comes to the same on both grounds if fragments are rendered alike. -/
theorem settles_invoke_portable (hs : s.IsPortable G.shared) {w : Amount} (bound : Nat)
    {fragment fragment' : String → Run String}
    (hfragment : ∀ w', w ≤ w' → ∀ name,
      (G.moving kept).Settles F w' (G.moving kept).Same (fun _ => fragment name)
        (fun _ => fragment' name))
    (routine : Compiled) {data data' : Value} (hdata : G.kinship.Values w data data') :
    (G.moving kept).Settles F w (G.moving kept).Same
      (fun _ => s.invoke bound fragment routine data)
      (fun _ => s.invoke bound fragment' routine data') := by
  have hserves := serves_portable (F := F) hs hfragment
  refine Settles.invoke (le_refl w) hs.escape.values hdata (settles_provideAll_portable hs w) rfl ?_
    rfl
  exact List.forall₂_same.mpr fun part _ =>
    (everything_fixed trivial (fun _ => trivial) hserves bound).executes callLimit part

/-- Fragments are rendered alike if their routines are the same on both sides. -/
theorem settles_includeFragment (hs : s.IsPortable G.shared)
    (hcompile : ∀ (w : Amount) (template : String),
      (G.moving kept).Settles F w (G.moving kept).Same (fun _ => s.compileNested template)
        (fun _ => s.compileNested template))
    (bound levels : Nat) {w : Amount} {data data' : Value}
    (hdata : G.kinship.Values w data data') (name : String) :
    (G.moving kept).Settles F w (G.moving kept).Same
      (fun _ => s.includeFragment bound data levels name)
      (fun _ => s.includeFragment bound data' levels name) := by
  refine Settles.includeFragment (L := G.moving kept) (D := G.kinship.Values)
    (R := fun _ => (G.moving kept).Same) (fun hw hv => hv.mono (K := G.kinship) hw) rfl
    (fun w _ _ template _ => hcompile w template) bound ?_ levels le_rfl hdata name
  rintro w₁ _ fragment fragment' hfragment _ _ routine _ data data' _ rfl hdata
  exact settles_invoke_portable hs bound hfragment routine hdata

end Routines

end Stencil
