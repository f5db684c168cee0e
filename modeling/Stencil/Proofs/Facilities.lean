import Stencil.Proofs.History
import Stencil.Proofs.Pairing

/-!
# Facilities

What the facilities make of a fresh engine, whichever of them are installed and in whatever
order.  The order shows in the lists of hooks, and in the native functions, which are numbered as
they are made.

* `Facility`, `Facility.plugin` — the facilities;
* `Parameter`, `Facility.parameters` — the parameters that a facility adds, and where their values
  come from;
* `numberedFrom` — those parameters with their providers, the native functions numbered from some
  act on;
* `equipped`, `after_use` — the engine with some facilities, explicitly.
-/

namespace Stencil

open Routine Template

/-! ### The facilities -/

/-- What the bundled plugins install. -/
inductive Facility where
  | fragments
  | layouts
  | helpers
  | messages
  | guard
deriving DecidableEq

namespace Facility

/-- All facilities. -/
def all : List Facility := [.fragments, .layouts, .helpers, .messages, .guard]

/-- The plugin that installs the facility, with a locale for messages. -/
def plugin (locale : String) : Facility → Plugin
  | .fragments => .fragments
  | .layouts => .layouts
  | .helpers => .helpers
  | .messages => .messages locale
  | .guard => .guard

end Facility

/-- The name of a parameter that a facility adds, and the code of the native function of this name
that is its value.  Without a code, the value is the object of the helpers. -/
abbrev Parameter : Type := String × Option Native

namespace Facility

/-- The parameters that the facility adds. -/
def parameters : Facility → List Parameter
  | .fragments =>
    [(fragmentFunction, some (.service .fragment)),
      (chosenFragmentFunction, some (.service .chosenFragment))]
  | .helpers => [(helpersName, none)]
  | .messages => [(messageFunction, some (.service .message))]
  | .layouts | .guard => []

/-- The changes to templates that the facility adds behind others. -/
def rewrites : Facility → List Preprocessor
  | .fragments => [.inclusions]
  | .messages => [.messages]
  | .layouts | .helpers | .guard => []

/-- The acts of its plugin on the hooks, if the next native function has this number. -/
def acts (n : Nat) : Facility → List Hook
  | .fragments =>
    [.addPreprocessor .inclusions,
      .inject fragmentFunction (.constant (.native fragmentFunction (.service .fragment) n)),
      .inject chosenFragmentFunction
        (.constant (.native chosenFragmentFunction (.service .chosenFragment) (n + 1)))]
  | .layouts => [.addFirstPreprocessor .layouts]
  | .helpers => [.inject helpersName .helpers]
  | .messages =>
    [.addPreprocessor .messages,
      .inject messageFunction (.constant (.native messageFunction (.service .message) n))]
  | .guard => [.addWrapper .guarded]

end Facility

/-- How many of the parameters have native functions. -/
def natives : List Parameter → Nat
  | [] => 0
  | (_, none) :: ps => natives ps
  | (_, some _) :: ps => natives ps + 1

/-- The parameters with their providers, if the native functions are numbered from here on. -/
def numberedFrom : Nat → List Parameter → List (String × Provider)
  | _, [] => []
  | n, (name, none) :: ps => (name, .helpers) :: numberedFrom n ps
  | n, (name, some code) :: ps =>
    (name, .constant (.native name code n)) :: numberedFrom (n + 1) ps

theorem natives_append (ps qs : List Parameter) :
    natives (ps ++ qs) = natives ps + natives qs := by
  induction ps with
  | nil => exact (Nat.zero_add _).symm
  | cons p ps ih =>
    obtain ⟨name, code⟩ := p
    cases code with
    | none => exact ih
    | some code =>
      rw [List.cons_append, natives, natives, ih]
      omega

theorem numberedFrom_append (n : Nat) (ps qs : List Parameter) :
    numberedFrom n (ps ++ qs) = numberedFrom n ps ++ numberedFrom (n + natives ps) qs := by
  induction ps generalizing n with
  | nil => rfl
  | cons p ps ih =>
    obtain ⟨name, code⟩ := p
    cases code with
    | none => exact congrArg ((name, Provider.helpers) :: ·) (ih n)
    | some code =>
      rw [List.cons_append, numberedFrom, ih, numberedFrom, natives]
      rw [show n + 1 + natives ps = n + (natives ps + 1) by omega]
      rfl

theorem map_fst_numberedFrom (n : Nat) (ps : List Parameter) :
    (numberedFrom n ps).map Prod.fst = ps.map Prod.fst := by
  induction ps generalizing n with
  | nil => rfl
  | cons p ps ih =>
    obtain ⟨name, code⟩ := p
    cases code with
    | none => exact congrArg (name :: ·) (ih n)
    | some code => exact congrArg (name :: ·) (ih (n + 1))

/-- A provider for a parameter.  The number of a native function is one of those from a first one
on. -/
inductive Provider.Gives (name : String) (first count : Nat) : Option Native → Provider → Prop where
  | helpers : Gives name first count none .helpers
  | native (code : Native) {n : Nat} (h : first ≤ n) (h' : n < first + count) :
    Gives name first count (some code) (.constant (.native name code n))

theorem Provider.Gives.mono {name : String} {first count first' count' : Nat} {code : Option Native}
    {p : Provider} (h : first' ≤ first) (h' : first + count ≤ first' + count')
    (hp : p.Gives name first count code) : p.Gives name first' count' code := by
  cases hp with
  | helpers => exact .helpers
  | native code hn hn' => exact .native code (h.trans hn) (hn'.trans_le h')

/-- Each parameter has a provider of its own. -/
theorem lookupName_numberedFrom (n : Nat) (ps : List Parameter) (name : String) :
    Option.Rel (fun code p => p.Gives name n (natives ps) code) (lookupName name ps)
      (lookupName name (numberedFrom n ps)) := by
  induction ps generalizing n with
  | nil => exact .none
  | cons p ps ih =>
    obtain ⟨key, code⟩ := p
    cases code with
    | none =>
      simp only [lookupName, numberedFrom, natives]
      split
      · exact .some .helpers
      · exact ih n
    | some code =>
      simp only [lookupName, numberedFrom, natives]
      split
      · rename_i hkey
        subst hkey
        exact .some (.native code le_rfl (by omega))
      · exact optionRel_imp (ih (n + 1)) fun _ _ hp => hp.mono (by omega) (by omega)

/-- No two parameters share a native function. -/
theorem eq_of_lookupName_numberedFrom {n i : Nat} {ps : List Parameter} {name name' : String}
    {code code' : Native}
    (h : lookupName name (numberedFrom n ps) = some (.constant (.native name code i)))
    (h' : lookupName name' (numberedFrom n ps) = some (.constant (.native name' code' i))) :
    name = name' := by
  induction ps generalizing n with
  | nil => cases h
  | cons p ps ih =>
    obtain ⟨key, code⟩ := p
    -- A function behind the first one has another number.
    have later {other : String} {c : Native} (hfound : lookupName other (numberedFrom (n + 1) ps)
        = some (.constant (.native other c n))) : False := by
      have hrel := lookupName_numberedFrom (n + 1) ps other
      rw [hfound] at hrel
      generalize lookupName other ps = a at hrel
      cases hrel with
      | some hp =>
        cases hp with
        | native _ hle => omega
    cases code with
    | none =>
      simp only [lookupName, numberedFrom] at h h'
      split at h
      · cases h
      · split at h'
        · cases h'
        · exact ih h h'
    | some code =>
      simp only [lookupName, numberedFrom] at h h'
      split at h
      · rename_i hkey
        split at h'
        · rename_i hkey'
          exact hkey.symm.trans hkey'
        · cases h
          exact (later h').elim
      · split at h'
        · cases h'
          exact (later h).elim
        · exact ih h h'

/-! ### The engine with some facilities -/

/-- The hooks that these facilities leave, installed in this order. -/
def equippedHooks (fs : List Facility) : Hooks :=
  let parameters := numberedFrom 1 (fs.flatMap Facility.parameters)
  { preprocessors :=
      { hooks := (if .layouts ∈ fs then [.layouts] else []) ++ fs.flatMap Facility.rewrites
        leading := if .layouts ∈ fs then 1 else 0 }
    wrappers := { hooks := if .guard ∈ fs then [.guarded] else [] }
    params := parameters.map Prod.fst
    providers := parameters.map Prod.snd
    version := parameters.length }

/-- The fresh engine with these facilities, installed in this order, but with other hooks. -/
def equippedWith (hooks : Hooks) (bound : Nat) (locale : String) (fs : List Facility) : Engine where
  setting :=
    { hooks := hooks
      fragments := if .fragments ∈ fs then some .empty else none
      layouts := if .layouts ∈ fs then some .empty else none
      helpers := if .helpers ∈ fs then some .empty else none
      catalog := if .messages ∈ fs then some { locale := locale } else none
      guarded := decide (.guard ∈ fs)
      escape := .native escapeName (.service .escape) 0 }
  store :=
    { heap := { identities := 1 + natives (fs.flatMap Facility.parameters) }
      cache := Cache.create bound }

/-- The fresh engine with these facilities, installed in this order. -/
def equipped (bound : Nat) (locale : String) (fs : List Facility) : Engine :=
  equippedWith (equippedHooks fs) bound locale fs

section Install

variable {fs : List Facility} {f : Facility} (hf : f ∉ fs)
include hf

/-- One more facility performs its acts. -/
theorem equippedHooks_append :
    equippedHooks (fs ++ [f])
      = (equippedHooks fs).applyAll (f.acts (1 + natives (fs.flatMap Facility.parameters))) := by
  cases f <;>
    simp [equippedHooks, Hooks.applyAll, Facility.acts, Facility.parameters, Facility.rewrites,
      Hooks.apply, Hooks.addParam, Hooks.addProvider, HookList.add, HookList.addFirst,
      numberedFrom_append, numberedFrom, hf]

/-- A facility that is not there yet comes behind those that are there. -/
theorem install_equippedWith (hooks given : Hooks) (bound : Nat) (locale : String) :
    (f.plugin locale).install (equippedWith hooks bound locale fs) given
      = (equippedWith hooks bound locale (fs ++ [f]),
          given.applyAll (f.acts (1 + natives (fs.flatMap Facility.parameters)))) := by
  cases f with
  | fragments =>
    simp [Facility.plugin, Plugin.install, Engine.installFragments, equippedWith, hf, Engine.change,
      Engine.make, Heap.newNative, Facility.acts, Hooks.applyAll, Facility.parameters,
      natives_append, natives, Nat.add_assoc]
  | layouts =>
    simp [Facility.plugin, Plugin.install, Engine.installLayouts, equippedWith, hf, Engine.change,
      Facility.acts, Hooks.applyAll, Facility.parameters]
  | helpers => 
    simp [Facility.plugin, Plugin.install, Engine.installHelpers, equippedWith, hf, Engine.change,
      Facility.acts, Hooks.applyAll, Facility.parameters, natives_append, natives]
  | messages => 
    simp [Facility.plugin, Plugin.install, Engine.installMessages, equippedWith, hf, Engine.change,
      Engine.make, Heap.newNative, Facility.acts, Hooks.applyAll, Facility.parameters,
      natives_append, natives, Nat.add_assoc]
  | guard => 
    simp [Facility.plugin, Plugin.install, Engine.installGuard, equippedWith, hf, Engine.change,
      Facility.acts, Hooks.applyAll, Facility.parameters]

theorem use_equipped (bound : Nat) (locale : String) :
    (equipped bound locale fs).use (f.plugin locale) = equipped bound locale (fs ++ [f]) := by
  have hinstall : (f.plugin locale).install ((equipped bound locale fs).withHooks {})
      (equipped bound locale fs).setting.hooks = _ :=
    install_equippedWith hf {} (equippedHooks fs) bound locale
  rw [← equippedHooks_append hf] at hinstall
  simp only [Engine.use, Engine.useWith, hinstall]
  have hnothing : (equippedWith {} bound locale (fs ++ [f])).setting.hooks = {} := rfl
  rw [hnothing, Hooks.absorb_empty]
  rfl

end Install

/-- **The engine after installing facilities**, none of them twice. -/
theorem after_use (bound : Nat) (locale : String) {fs : List Facility} (hfs : fs.Nodup) :
    (Engine.create bound).after (fs.map fun f => .use (f.plugin locale))
      = equipped bound locale fs := by
  have go (installed fs : List Facility) (h : (installed ++ fs).Nodup) :
      (equipped bound locale installed).after (fs.map fun f => .use (f.plugin locale))
        = equipped bound locale (installed ++ fs) := by
    induction fs generalizing installed with
    | nil => rw [List.append_nil]; rfl
    | cons f fs ih =>
      have hf : f ∉ installed := fun hmem =>
        (List.nodup_append.mp h).2.2 f hmem f List.mem_cons_self rfl
      show ((equipped bound locale installed).use (f.plugin locale)).after _ = _
      rw [← List.singleton_append, ← List.append_assoc] at h ⊢
      rw [use_equipped hf, ih _ h]
  exact go [] fs hfs

end Stencil
