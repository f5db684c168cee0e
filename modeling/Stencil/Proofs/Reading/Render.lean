import Stencil.Proofs.Reading.Routine
import Stencil.Proofs.Steady

/-!
# Rendering a printed tree

On an engine into which nothing was hooked, rendering a printed tree is reading the tree.

* `Engine.Bare` — nothing was hooked into the engine, and its routines come from their templates;
* `bare_onStore`, `bare_after` — a new engine is bare, and stays so while no plugin is installed;
* `answers_invoke` — the routine of a tree answers what reading the tree gives;
* `render_print` — rendering is reading.
-/

namespace Stencil

open Routine Reading Template

/-! ### Engines without plugins -/

/-- The routine comes from the template, whose source nothing changed. -/
def FromTemplate (template : String) (routine : Compiled) : Prop :=
  ∃ program, parseProgram [dataName, escapeName] (inDataScope (generate (tokenize template)))
    = .ok program ∧ routine.program = program.numbered

/-- Nothing was hooked into the engine. -/
structure Engine.Bare (e : Engine) : Prop where
  /-- There are no hooks. -/
  hooks : e.setting.hooks = {}
  /-- The function that escapes is the one of the engine. -/
  escape : ∃ identity, e.setting.escape = .native escapeName (.service .escape) identity
  /-- The kept routines come from their templates. -/
  kept : Kept e.setting FromTemplate e.store

/-- Without hooks, templates are read as they are. -/
theorem parseProgram_of_unhooked {s : Setting} (hhooks : s.hooks = {}) (template : String) :
    parseProgram s.params (s.source template)
      = parseProgram [dataName, escapeName] (inDataScope (generate (tokenize template))) := by
  rw [Setting.params, Setting.source, Setting.wrap, Setting.preprocess]
  rw [hhooks]
  rfl

theorem fromTemplate_of_new {s : Setting} (hhooks : s.hooks = {}) (template : String)
    {routine : Compiled} (h : New s template routine) : FromTemplate template routine := by
  obtain ⟨program, count, hparse, rfl⟩ := h
  rw [parseProgram_of_unhooked hhooks] at hparse
  exact ⟨program, hparse, rfl⟩

theorem Engine.Bare.steady {e : Engine} (h : e.Bare) : e.Steady {} FromTemplate :=
  ⟨h.hooks, h.escape, h.kept⟩

theorem Engine.Bare.make {e : Engine} (h : e.Bare) {α : Type} (f : Heap → α × Heap) :
    (e.make f).2.Bare :=
  ⟨h.hooks, h.escape, h.kept.change _⟩

/-- A new engine is bare, whatever other engines there were before it. -/
theorem bare_onStore (store : Store) (codes : Array Helper) (cap : Nat) :
    (Engine.onStore store codes cap).Bare :=
  ⟨rfl, ⟨store.heap.identities, rfl⟩, .of_create cap rfl (Nat.le_refl 0)⟩

/-- An engine stays bare while no plugin is installed. -/
theorem bare_after {e : Engine} (h : e.Bare) {ops : List Operation}
    (hops : ∀ op ∈ ops, op.isPlain = true) : (e.after ops).Bare := by
  have hsteady := h.steady.after (fun s hhooks template _ => fromTemplate_of_new hhooks template)
    hops
  exact ⟨hsteady.hooks, hsteady.escape, hsteady.kept⟩

/-! ### Invoking the routine of a tree -/

/-- The heap in which an invocation without additional parameters begins. -/
def boundHeap (h : Heap) (data : Value) (identity : Nat) : Heap :=
  h.newFrame.2.declareAll [.locals h.frames.size] [dataName, escapeName]
    [data, .native escapeName (.service .escape) identity]

theorem extends_boundHeap (h : Heap) (data : Value) (identity : Nat) :
    Extends h (boundHeap h data identity) :=
  ⟨Nat.le_refl _, fun _ _ => rfl, Nat.le_refl _, fun _ _ => rfl⟩

/-- The frame of the parameters has the data and the function that escapes. -/
theorem begun_boundHeap (h : Heap) (data : Value) (identity : Nat) :
    Begun (boundHeap h data identity) h.frames.size data := by
  have hsize := Heap.size_newFrame h
  have hframe : (boundHeap h data identity).frame h.frames.size
      = (Roster.empty.insert dataName ⟨data, true⟩).insert escapeName
          ⟨.native escapeName (.service .escape) identity, true⟩ := by
    show ((h.newFrame.2.setLocal h.frames.size dataName _).setLocal h.frames.size escapeName
      _).frame h.frames.size = _
    rw [Heap.frame_setLocal _ _ _ _ (by rw [Heap.size_setLocal]; omega), if_pos rfl,
      Heap.frame_setLocal _ _ _ _ (by omega), if_pos rfl, Heap.frame_newFrame, if_pos rfl]
  refine ⟨?_, ?_, ⟨escapeName, identity, ?_⟩, ?_⟩
  · show h.frames.size
      < ((h.newFrame.2.setLocal h.frames.size dataName _).setLocal h.frames.size escapeName
          _).frames.size
    rw [Heap.size_setLocal, Heap.size_setLocal]
    omega
  · rw [hframe, Roster.get?_insert, if_neg (by decide), Roster.get?_insert, if_pos rfl]
  · rw [hframe, Roster.get?_insert, if_pos rfl]
  · intro name hdata hescape
    rw [hframe, Roster.get?_insert, if_neg (Ne.symm hescape), Roster.get?_insert,
      if_neg (Ne.symm hdata)]
    rfl

/-- The routine of a tree answers what reading the tree gives. -/
theorem answers_invoke (ns : List (Reading.Node (List Char))) {s : Setting} (hhooks : s.hooks = {})
    (hescape : ∃ identity, s.escape = .native escapeName (.service .escape) identity)
    {routine : Compiled} (hroutine : routine.program = ⟨[dataName, escapeName], bodyOf ns⟩)
    (fragment : String → Run String) (store : Store) {data : Value}
    {members : List (String × Json)} (hdata : Means store.heap data (some (.object members)))
    (hkey : (Roster.ofList members).get? escapeName = none) {bound : Nat}
    (hbound : stepsOf ns + 3 ≤ bound) :
    Answers (s.invoke bound fragment routine data) store
      (readNodes id (Roster.ofList members).get? ns) := by
  obtain ⟨identity, hescape⟩ := hescape
  have harity : routine.arity = 2 := by
    show routine.program.params.length = 2
    rw [hroutine]
    rfl
  have hinvoke : s.invoke bound fragment routine data store
      = (routine.program.run bound ⟨s.perform fragment, routine.number, callLimit⟩ [data, s.escape]
          >>= Run.textOf) store := by
    rw [Setting.invoke_eq, hhooks, harity]
    rfl
  have hescapes : Escapes ⟨s.perform fragment, routine.number, callLimit⟩ :=
    ⟨fun _ => rfl, nofun⟩
  have hrun : (routine.program.run bound ⟨s.perform fragment, routine.number, callLimit⟩
        [data, s.escape] >>= Run.textOf) store
      = (Program.runBound ⟨[dataName, escapeName], bodyOf ns⟩ bound
            ⟨s.perform fragment, routine.number, callLimit⟩ [.locals store.heap.frames.size]
          >>= Run.textOf)
        { store with heap := boundHeap store.heap data identity } := by
    refine run_bind_congr ?_
    rw [hroutine, hescape, Program.run_eq]
    rfl
  have hmeans := hdata.extend (extends_boundHeap store.heap data identity)
  have h := runBound_bodyOf ns [dataName, escapeName] hescapes
    { store with heap := boundHeap store.heap data identity }
    (begun_boundHeap store.heap data identity) hmeans hkey hbound
  generalize readNodes id (Roster.ofList members).get? ns = r at h ⊢
  cases r with
  | error f =>
    obtain ⟨store', hfail⟩ := h
    exact ⟨store', (hinvoke.trans hrun).trans hfail⟩
  | ok text =>
    obtain ⟨store', hok⟩ := h
    exact ⟨store', (hinvoke.trans hrun).trans hok⟩

/-! ### Rendering -/

theorem get?_ofList_eq_none {α : Type} {name : String} {pairs : List (String × α)}
    (h : ∀ pair ∈ pairs, pair.1 ≠ name) : (Roster.ofList pairs).get? name = none := by
  have insertAll (r : Roster α) (hr : r.get? name = none) :
      (r.insertAll pairs).get? name = none := by
    induction pairs generalizing r with
    | nil => exact hr
    | cons pair pairs ih =>
      refine ih (fun other hother => h other (List.mem_cons_of_mem pair hother))
        (r.insert pair.1 pair.2) ?_
      rw [Roster.get?_insert, if_neg (h pair List.mem_cons_self)]
      exact hr
  exact insertAll .empty rfl

/-- A JSON object becomes an object without the names that are none of its keys. -/
theorem exists_object_ofJson (h : Heap) (members : List (String × Json)) :
    ∃ object, (h.ofJson (.object members)).1 = .object object
      ∧ ∀ name, (Roster.ofList members).get? name = none →
        ((h.ofJson (.object members)).2.members object).get? name = none := by
  obtain ⟨-, object, vs, hobject, -, hmembers, hvs⟩ := holds_ofJson h (.object members)
  refine ⟨object, hobject, fun name hname => ?_⟩
  rw [hmembers]
  rcases corresponds_ofList hvs name with ⟨hnone, -⟩ | ⟨v, j, -, hj, -⟩
  · exact hnone
  · cases hj.symm.trans hname

/-- Data without a key do not give the name a value when they are opened. -/
theorem linkValue?_ofJson (h : Heap) {data : Json} {name : String}
    (hkey : ∀ members, data = .object members → (Roster.ofList members).get? name = none) :
    (h.ofJson data).2.linkValue? name (openedLink (h.ofJson data).1 false) = none := by
  cases data with
  | object members =>
    obtain ⟨object, hobject, habsent⟩ := exists_object_ofJson h members
    rw [hobject]
    exact habsent name (hkey members rfl)
  | null | bool | number | text | array => rfl

/-- A bare engine renders a printed tree as the tree reads. -/
theorem Engine.Bare.render {e : Engine} (h : e.Bare) (ns : List (Reading.Node TextRun))
    (hprint : print ns ≠ "") {members : List (String × Json)}
    (hkey : ∀ member ∈ members, member.1 ≠ escapeName) {bound : Nat}
    (hbound : stepsOf (mergeNodes [] ns) + 3 ≤ bound) :
    (e.render bound (some (print ns)) (.object members)).1
      = (readNodes TextRun.chars (Roster.ofList members).get? ns).mapError .render := by
  obtain ⟨hputs, hholds⟩ := holds_ofJson e.store.heap (.object members)
  have hbare := h.make fun heap => heap.ofJson (.object members)
  have hrender : e.render bound (some (print ns)) (.object members)
      = (e.make fun heap => heap.ofJson (.object members)).2.renderValue bound (some (print ns))
          (e.store.heap.ofJson (.object members)).1 := rfl
  have hheap : (e.make fun heap => heap.ofJson (.object members)).2.store.heap
      = (e.store.heap.ofJson (.object members)).2 := rfl
  rw [hrender, ← readNodes_merge]
  generalize (e.make fun heap => heap.ofJson (.object members)).2 = ready at hbare hheap ⊢
  rw [← hheap] at hholds
  generalize (e.store.heap.ofJson (.object members)).1 = data at hholds ⊢
  have hparse := parse_source [dataName, escapeName] ns
  rcases hbare.kept.compile fun _ => fromTemplate_of_new hbare.hooks (print ns) with
    ⟨routine, after, hcompile, hfrom, -, hafter⟩ | ⟨stop, after, -, hstop, -⟩
  · obtain ⟨program, hprogram, hroutine⟩ := hfrom
    cases hprogram.symm.trans hparse
    rw [numbered_bodyOf] at hroutine
    rw [← hafter] at hholds
    have hanswers := answers_invoke (mergeNodes [] ns) hbare.hooks hbare.escape hroutine
      (ready.setting.includeFragment bound data nestingLimit) after hholds
      (get?_ofList_eq_none hkey) hbound
    have hcompiled : ready.compile (print ns) = (.ok routine, { ready with store := after }) := by
      rw [Engine.compile]
      rw [EStateM.run, hcompile]
    have hempty : (print ns).isEmpty = false := by
      rw [← Bool.not_eq_true, String.isEmpty_iff]
      exact hprint
    rw [Engine.renderValue]
    rw [hempty, if_neg Bool.false_ne_true, hcompiled]
    dsimp only
    rw [Engine.performRun, Setting.renderTop]
    generalize readNodes id (Roster.ofList members).get? (mergeNodes [] ns) = r at hanswers ⊢
    cases r with
    | error f =>
      obtain ⟨store', hfail⟩ := hanswers
      rw [EStateM.run, hfail]
      rfl
    | ok text =>
      obtain ⟨store', hok⟩ := hanswers
      rw [EStateM.run, hok]
      rfl
  · rw [parseProgram_of_unhooked hbare.hooks, hparse] at hstop
    cases hstop

/-- **Rendering is reading.**  On every engine into which nothing was hooked, whatever it was used
for before, and with all data, a printed tree becomes the text that reading the tree gives, or fails
as reading fails.  How many steps that takes depends on the tree alone. -/
theorem render_print (ns : List (Reading.Node TextRun)) (hprint : print ns ≠ "") :
    ∃ need, ∀ (store : Store) (codes : Array Helper) (cap : Nat) (ops : List Operation),
      (∀ op ∈ ops, op.isPlain = true) →
      ∀ members : List (String × Json), (∀ member ∈ members, member.1 ≠ escapeName) →
      ∀ bound, need ≤ bound →
        (((Engine.onStore store codes cap).after ops).render bound (some (print ns))
            (.object members)).1
          = (readNodes TextRun.chars (Roster.ofList members).get? ns).mapError .render := by
  refine ⟨stepsOf (mergeNodes [] ns) + 3, ?_⟩
  intro store codes cap ops hops members hkey bound hbound
  exact (bare_after (bare_onStore store codes cap) hops).render ns hprint hkey hbound

/-- A tree with nodes of every kind. -/
def greeting : List (Reading.Node TextRun) :=
  [.text .less,
    .escaped ⟨⟨⟨['u'], by decide⟩, by decide, by decide⟩, [⟨['n'], by decide⟩]⟩,
    .branch ⟨⟨⟨['x', 's'], by decide⟩, by decide, by decide⟩, []⟩
      [.each ⟨.x, by decide, by decide⟩
        ⟨⟨⟨['x', 's'], by decide⟩, by decide, by decide⟩, []⟩
        [.text ⟨[','], by decide, by decide⟩,
          .raw ⟨⟨.x, by decide, by decide⟩, []⟩]]
      [.text .dash]]

theorem render_print_greeting :
    print greeting
        = "<[[= u.n ]][[ if (xs) \x7b ]][[ for (const x of xs) \x7b ]],[[- x ]][[ \x7d ]]"
          ++ "[[ \x7d else \x7b ]]-[[ \x7d ]]"
      ∧ ∃ need, ∀ bound, need ≤ bound →
        (((Engine.create 8).after [.compile "a", .clear]).render bound (some (print greeting))
            (.object [("u", .object [("n", .text "&")]), ("x", .null),
              ("xs", .array [.text "b", .text "<"])])).1
          = .ok "<&amp;,b,<" := by
  obtain ⟨need, h⟩ := render_print greeting (by decide +kernel)
  refine ⟨by decide +kernel, need, ?_⟩
  intro bound hbound
  have hrender := h {} #[] 8 [.compile "a", .clear] (by decide)
    [("u", .object [("n", .text "&")]), ("x", .null), ("xs", .array [.text "b", .text "<"])]
    (by decide) bound hbound
  have hread : readNodes TextRun.chars (Roster.ofList [("u", .object [("n", .text "&")]),
      ("x", .null), ("xs", .array [.text "b", .text "<"])]).get? greeting = .ok "<&amp;,b,<" := by
    decide +kernel
  rw [hread] at hrender
  exact hrender

end Stencil
