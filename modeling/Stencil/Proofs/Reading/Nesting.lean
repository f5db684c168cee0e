import Stencil.Proofs.Reading.PageRun
import Stencil.Proofs.Watched

/-!
# Nested fragments

On an engine that includes fragments, ten inclusions may nest and no more.  A chain of fragments, of
which each includes the next one between two texts, becomes the texts in their order if it is no
longer than that, and fails at its eleventh fragment if it is.

* `FromPage`, `steady_fragments` — the kept routines of an engine that includes fragments;
* `yields_renderNested`, `yields_include` — what fragments come to that are pages;
* `Stage`, `Leads`, `stagesText` — chains of fragments and their text;
* `yields_shallow`, `yields_deep` — chains within the limit and beyond it;
* `fragments_nest_ten` — the main theorem.
-/

namespace Stencil

open Routine Reading Template

/-! ### Engines that include fragments -/

/-- The routine comes from the template, whose inclusions were written as calls. -/
def FromPage (template : String) (routine : Compiled) : Prop :=
  ∃ program, parseProgram pageParams (inDataScope (generate (tokenize (writeInclusions template))))
    = .ok program ∧ routine.program = program.numbered

/-- With the hooks for inclusions, templates are read with their inclusions written as calls. -/
theorem parseProgram_of_inclusions {s : Setting} {byName byValue : Nat}
    (hhooks : s.hooks = inclusionHooks byName byValue) (template : String) :
    parseProgram s.params (s.source template)
      = parseProgram pageParams
          (inDataScope (generate (tokenize (writeInclusions template)))) := by
  rw [Setting.params, Setting.source, Setting.wrap, Setting.preprocess]
  rw [hhooks]
  rfl

theorem fromPage_of_new {s : Setting} {byName byValue : Nat}
    (hhooks : s.hooks = inclusionHooks byName byValue) (template : String) (routine : Compiled)
    (h : New s template routine) : FromPage template routine := by
  obtain ⟨program, count, hparse, rfl⟩ := h
  rw [parseProgram_of_inclusions hhooks] at hparse
  exact ⟨program, hparse, rfl⟩

/-- A new engine on which fragments are installed. -/
theorem steady_fragments (store : Store) (codes : Array Helper) (cap : Nat)
    (P : String → Compiled → Prop) :
    ∃ byName byValue, ((Engine.onStore store codes cap).use .fragments).Steady
      (inclusionHooks byName byValue) P :=
  ⟨store.heap.identities + 1, store.heap.identities + 2, rfl, ⟨store.heap.identities, rfl⟩,
    .of_create cap rfl (Nat.zero_le _)⟩

/-! ### Fragments that are pages -/

/-- The store keeps routines of pages, and the object has no members. -/
structure Ready (s : Setting) (object : Nat) (store : Store) : Prop where
  /-- The kept routines come from their templates. -/
  kept : Kept s FromPage store
  /-- The object is empty. -/
  empty : store.heap.members object = .empty

theorem ofObjects_ready (s : Setting) (object : Nat) : OfObjects (Ready s object) := by
  intro store heap hready hobjects
  refine ⟨hready.kept.change heap, ?_⟩
  have hempty := hready.empty
  rw [Heap.members] at hempty
  rw [Heap.members, hobjects]
  exact hempty

/-- Only the page without text and inclusions is printed as nothing. -/
theorem Reading.Page.rows_of_print_empty {p : Page} (h : p.print = "") : p.rows = [] := by
  obtain ⟨first, rest⟩ := p
  have hchars : first.chars ++ segments Inclusion.print rest = [] := by
    have h' := congrArg String.toList h
    rwa [Page.print, String.toList_ofList] at h'
  obtain ⟨hfirst, hrest⟩ := List.append_eq_nil_iff.mp hchars
  cases rest with
  | nil =>
    rw [Page.rows, hfirst]
    rfl
  | cons part rest => cases hrest

section Nested

variable {s : Setting} {byName byValue object : Nat} {fragment : String → Run String}
  {texts : String → Except Failure String}

/-- The routine of a template is its program with its functions numbered. -/
theorem FromPage.program_eq {template : String} {program : Program} {routine : Compiled}
    (h : FromPage template routine)
    (hparse : parseProgram pageParams (inDataScope (generate (tokenize (writeInclusions template))))
      = .ok program) : routine.program = program.numbered := by
  obtain ⟨program', hparse', hprogram⟩ := h
  cases hparse.symm.trans hparse'
  exact hprogram

/-- The routine of a page is that of its rows. -/
theorem program_of_fromPage {p : Page} {routine : Compiled} (h : FromPage p.print routine) :
    routine.program = ⟨pageParams, pageBody p.rows⟩ := by
  rw [h.program_eq (parse_page pageParams p), numbered_pageBody]

/-- Compiling a template whose program is known gives a routine of it, and leaves the heap. -/
theorem compile_known (hhooks : s.hooks = inclusionHooks byName byValue) {template : String}
    {program : Program}
    (hparse : parseProgram pageParams (inDataScope (generate (tokenize (writeInclusions template))))
      = .ok program) {store : Store} (hkept : Kept s FromPage store) :
    ∃ routine after, s.compile template store = .ok routine after
      ∧ routine.program = program.numbered ∧ Kept s FromPage after
      ∧ after.heap = store.heap := by
  rcases hkept.compile (fromPage_of_new hhooks template) with
    ⟨routine, after, hcompile, hfrom, hafter, hheap⟩ | ⟨stop, after, -, hstop, -⟩
  · exact ⟨routine, after, hcompile, hfrom.program_eq hparse, hafter, hheap⟩
  · rw [parseProgram_of_inclusions hhooks, hparse] at hstop
    cases hstop

/-- Compiling a page gives the routine of its rows, and leaves the heap. -/
theorem compile_page (hhooks : s.hooks = inclusionHooks byName byValue) (p : Page) {store : Store}
    (hkept : Kept s FromPage store) :
    ∃ routine after, s.compile p.print store = .ok routine after
      ∧ routine.program = ⟨pageParams, pageBody p.rows⟩ ∧ Kept s FromPage after
      ∧ after.heap = store.heap := by
  have hcompile := compile_known hhooks (parse_page pageParams p) hkept
  rwa [numbered_pageBody] at hcompile

/-- A page that is rendered while another one is comes to what it reads. -/
theorem yields_renderNested (hhooks : s.hooks = inclusionHooks byName byValue) (p : Page)
    (h : ∀ i, .call i ∈ p.rows → Yields (Ready s object) (fragment i.name.name)
      (texts i.name.name)) (bound : Nat) :
    Yields (Ready s object) (s.renderNested (bound + 5) fragment p.print (.object object))
      (p.read texts) := by
  intro store hready
  rw [Setting.renderNested]
  by_cases hempty : p.print.isEmpty = true
  · rw [if_pos hempty, Page.read, Page.rows_of_print_empty (String.isEmpty_iff.mp hempty)]
    exact ⟨store, rfl, .refl _, hready⟩
  · obtain ⟨routine, after, hcompile, hroutine, hafter, hheap⟩ := compile_page hhooks p hready.kept
    have hnested : s.compileNested p.print store = .ok routine after := by
      rw [Setting.compileNested, hcompile]
    have hnext : Ready s object after := by
      refine ⟨hafter, ?_⟩
      rw [hheap]
      exact hready.empty
    have hyields := yields_invoke p hhooks hroutine (ofObjects_ready s object)
      (fun _ hready => hready.empty) h bound
    rw [if_neg hempty]
    refine .of_grows (run_bind_ok hnested) ?_ (hyields after hnext)
    rw [hheap]
    exact .refl _

variable {bound levels : Nat} {name : String}

/-- A fragment that is a page comes to what the page reads. -/
theorem yields_include (hhooks : s.hooks = inclusionHooks byName byValue) {p : Page}
    (hname : (s.fragments.getD .empty).get? name = some p.print)
    (h : ∀ i, .call i ∈ p.rows → Yields (Ready s object)
      (s.includeFragment (bound + 5) (.object object) levels i.name.name) (texts i.name.name)) :
    Yields (Ready s object) (s.includeFragment (bound + 5) (.object object) (levels + 1) name)
      (p.read texts) := by
  rw [Setting.includeFragment_succ hname]
  exact yields_renderNested hhooks p h bound

/-- Where no more inclusion may nest, a fragment that is there fails. -/
theorem yields_include_zero {data : Value} {R : Store → Prop}
    (hname : ((s.fragments.getD .empty).get? name).isSome = true) :
    Yields R (s.includeFragment bound data 0 name) (.error (.fragmentDepth name)) := by
  intro store _
  obtain ⟨template, htemplate⟩ := Option.isSome_iff_exists.mp hname
  refine ⟨rfl, store, ?_, rfl, rfl⟩
  rw [Setting.includeFragment_zero htemplate]
  rfl

end Nested

/-! ### Chains of fragments -/

/-- A template that includes one fragment between two texts. -/
structure Stage where
  /-- The text in front. -/
  before : TextRun
  /-- The inclusion. -/
  inclusion : Inclusion
  /-- The text behind. -/
  after : TextRun

namespace Stage

/-- The stage as a page. -/
def page (a : Stage) : Page := ⟨a.before, [(a.inclusion, a.after)]⟩

/-- The template. -/
def print (a : Stage) : String := a.page.print

/-- The name of the fragment that is included. -/
def target (a : Stage) : String := a.inclusion.name.name

/-- A text between the texts of the stage. -/
def around (a : Stage) (text : String) : String :=
  String.ofList a.before.chars ++ text ++ String.ofList a.after.chars

end Stage

/-- Each stage includes the fragment that the next one is. -/
def Leads (registry : Roster String) (stages : List Stage) : Prop :=
  stages.IsChain fun a b => registry.get? a.target = some b.print

/-- The text of a chain of stages whose last one includes a text. -/
def stagesText (last : TextRun) (stages : List Stage) : String :=
  stages.foldr Stage.around (String.ofList last.chars)

theorem readRows_textRow (texts : String → Except Failure String) (cs : List Char)
    (rows : List Row) :
    readRows texts (textRow cs ++ rows)
      = (readRows texts rows).map fun text => String.ofList cs ++ text := by
  rw [textRow]
  split
  · rename_i hempty
    rw [List.isEmpty_iff.mp hempty, List.nil_append]
    cases readRows texts rows with
    | error f => rfl
    | ok text => exact congrArg Except.ok String.empty_append.symm
  · rw [List.cons_append, List.nil_append, readRows]
    cases readRows texts rows <;> rfl

/-- A page without inclusions reads its text. -/
theorem read_plain (texts : String → Except Failure String) (t : TextRun) :
    Page.read texts ⟨t, []⟩ = .ok (String.ofList t.chars) := by
  have h := readRows_textRow texts t.chars []
  rw [Page.read, Page.rows]
  refine h.trans ?_
  show Except.ok (String.ofList t.chars ++ "") = _
  rw [String.append_empty]

/-- A stage reads what its fragment comes to between its texts. -/
theorem Stage.read_page (a : Stage) (r : Except Failure String) :
    a.page.read (fun _ => r) = r.map a.around := by
  have hrows : a.page.rows
      = textRow a.before.chars ++ .call a.inclusion :: (textRow a.after.chars ++ []) := rfl
  rw [Page.read, hrows, readRows_textRow, readRows, readRows_textRow]
  cases r with
  | error f => rfl
  | ok text =>
    show Except.ok (String.ofList a.before.chars ++ (text ++ (String.ofList a.after.chars ++ "")))
      = .ok (a.around text)
    rw [String.append_empty, around, String.append_assoc]

theorem print_plain (t : TextRun) : Page.print ⟨t, []⟩ = String.ofList t.chars := by
  rw [Page.print, segments, List.flatMap_nil, List.append_nil]

theorem call_notMem_textRow (i : Inclusion) (cs : List Char) : .call i ∉ textRow cs := by
  rw [textRow]
  split <;> simp

/-- The inclusion of a stage is the only one in it. -/
theorem Stage.eq_inclusion (a : Stage) {i : Inclusion} (h : .call i ∈ a.page.rows) :
    i = a.inclusion := by
  have hrows : a.page.rows
      = textRow a.before.chars ++ .call a.inclusion :: (textRow a.after.chars ++ []) := rfl
  rw [hrows, List.append_nil, List.mem_append, List.mem_cons] at h
  rcases h with h | h | h
  · exact absurd h (call_notMem_textRow i _)
  · cases h
    rfl
  · exact absurd h (call_notMem_textRow i _)

theorem call_notMem_plain {i : Inclusion} {t : TextRun} : .call i ∉ Page.rows ⟨t, []⟩ := by
  have hrows : Page.rows ⟨t, []⟩ = textRow t.chars ++ [] := rfl
  rw [hrows, List.append_nil]
  exact call_notMem_textRow i t.chars

section Chains

variable {s : Setting} {byName byValue object : Nat}

/-- The fragment of a stage comes to what its own fragment comes to, between its texts. -/
theorem yields_stage (hhooks : s.hooks = inclusionHooks byName byValue) {name : String} (a : Stage)
    (hname : (s.fragments.getD .empty).get? name = some a.print) {bound levels : Nat}
    {r : Except Failure String}
    (h : Yields (Ready s object)
      (s.includeFragment (bound + 5) (.object object) levels a.target) r) :
    Yields (Ready s object) (s.includeFragment (bound + 5) (.object object) (levels + 1) name)
      (r.map a.around) := by
  rw [← a.read_page r]
  refine yields_include hhooks hname fun i hi => ?_
  rw [a.eq_inclusion hi]
  exact h

/-- A chain that is no longer than the inclusions that may nest comes to its text. -/
theorem yields_shallow (hhooks : s.hooks = inclusionHooks byName byValue) (bound : Nat)
    (last : TextRun) (a : Stage) (path : List Stage) {levels : Nat}
    (hleads : Leads (s.fragments.getD .empty) (a :: path))
    (hlast : ∀ b ∈ (a :: path).getLast?,
      (s.fragments.getD .empty).get? b.target = some (String.ofList last.chars))
    (hshort : (a :: path).length ≤ levels) :
    Yields (Ready s object) (s.includeFragment (bound + 5) (.object object) levels a.target)
      (.ok (stagesText last path)) := by
  induction path generalizing a levels with
  | nil =>
    obtain ⟨levels, rfl⟩ : ∃ l, levels = l + 1 := ⟨levels - 1, by
      rw [List.length_singleton] at hshort
      omega⟩
    have hname := hlast a rfl
    rw [← print_plain] at hname
    rw [stagesText, List.foldr_nil, ← read_plain fun _ => .ok ""]
    refine yields_include hhooks hname fun i hi => ?_
    exact absurd hi call_notMem_plain
  | cons c path ih =>
    obtain ⟨levels, rfl⟩ : ∃ l, levels = l + 1 := ⟨levels - 1, by
      rw [List.length_cons] at hshort
      omega⟩
    rw [Leads, List.isChain_cons_cons] at hleads
    rw [List.length_cons] at hshort
    have hnext := ih c hleads.2 (fun b hb => hlast b (by rwa [List.getLast?_cons_cons]))
      (by omega : (c :: path).length ≤ levels)
    exact yields_stage hhooks c hleads.1 hnext

/-- A chain that is longer fails at the first fragment beyond the inclusions that may nest. -/
theorem yields_deep (hhooks : s.hooks = inclusionHooks byName byValue) (bound : Nat)
    (a : Stage) (path : List Stage) {levels : Nat}
    (hleads : Leads (s.fragments.getD .empty) (a :: path)) {b : Stage}
    (hb : (a :: path)[levels]? = some b)
    (hthere : ((s.fragments.getD .empty).get? b.target).isSome = true) :
    Yields (Ready s object) (s.includeFragment (bound + 5) (.object object) levels a.target)
      (.error (.fragmentDepth b.target)) := by
  induction levels generalizing a path with
  | zero =>
    cases hb
    exact yields_include_zero hthere
  | succ levels ih =>
    cases path with
    | nil => cases hb
    | cons c path =>
      rw [Leads, List.isChain_cons_cons] at hleads
      exact yields_stage hhooks c hleads.1 (ih c path hleads.2 hb)

end Chains

/-! ### Cycles -/

/-- Where every stage of a list includes a stage of it, chains of the list are as long as one
likes. -/
theorem exists_leads {registry : Roster String} {stages : List Stage}
    (hnext : ∀ a ∈ stages, ∃ b ∈ stages, registry.get? a.target = some b.print) (count : Nat)
    (a : Stage) (ha : a ∈ stages) :
    ∃ path : List Stage, path.length = count ∧ Leads registry (a :: path)
      ∧ ∀ b ∈ path, b ∈ stages := by
  induction count generalizing a with
  | zero => exact ⟨[], rfl, .singleton a, nofun⟩
  | succ count ih =>
    obtain ⟨b, hb, hlead⟩ := hnext a ha
    obtain ⟨path, hlength, hleads, hmem⟩ := ih b hb
    refine ⟨b :: path, congrArg (· + 1) hlength, .cons_cons hlead hleads, ?_⟩
    intro c hc
    rcases List.mem_cons.mp hc with rfl | hc
    · exact hb
    · exact hmem c hc

/-- Every stage of a chain but the last includes a stage of it. -/
theorem Leads.next_or_last {registry : Roster String} {stages : List Stage}
    (hleads : Leads registry stages) :
    ∀ a ∈ stages, (∃ b ∈ stages, registry.get? a.target = some b.print)
      ∨ a ∈ stages.getLast? := by
  induction stages with
  | nil => exact nofun
  | cons a stages ih =>
    cases stages with
    | nil =>
      intro b hb
      cases List.mem_singleton.mp hb
      exact .inr rfl
    | cons c stages =>
      rw [Leads, List.isChain_cons_cons] at hleads
      intro b hb
      rcases List.mem_cons.mp hb with rfl | hb
      · exact .inl ⟨c, List.mem_cons_of_mem _ List.mem_cons_self, hleads.1⟩
      · rw [List.getLast?_cons_cons]
        refine (ih hleads.2 b hb).imp_left fun hnext => ?_
        obtain ⟨d, hd, hlead⟩ := hnext
        exact ⟨d, List.mem_cons_of_mem a hd, hlead⟩

/-! ### Rendering -/

theorem Stage.print_ne_empty (a : Stage) : a.print ≠ "" := by
  intro hempty
  have hrows := Page.rows_of_print_empty hempty
  have hmem : Row.call a.inclusion ∈ a.page.rows := by
    show _ ∈ textRow a.before.chars ++ .call a.inclusion :: (textRow a.after.chars ++ [])
    exact List.mem_append_right _ List.mem_cons_self
  rw [hrows] at hmem
  cases hmem

section Rendering

variable {e : Engine} {byName byValue object bound : Nat} {r : Except Failure String}

/-- Rendering a stage with an empty object puts what its fragment comes to between its texts; arrays
and objects stay. -/
theorem renderValue_stage (h : e.Steady (inclusionHooks byName byValue) FromPage)
    (hobject : e.store.heap.members object = .empty) (a : Stage)
    (hyields : Yields (Ready e.setting object)
      (e.setting.includeFragment (bound + 5) (.object object) nestingLimit a.target) r) :
    (e.renderValue (bound + 5) (some a.print) (.object object)).1
        = (r.map a.around).mapError .render
      ∧ SameShared e.store.heap
          (e.renderValue (bound + 5) (some a.print) (.object object)).2.store.heap := by
  obtain ⟨routine, after, hcompile, hroutine, hafter, hheap⟩ := compile_page h.hooks a.page h.kept
  have hready : Ready e.setting object after := by
    refine ⟨hafter, ?_⟩
    rw [hheap]
    exact hobject
  have htop : ComesTo (Ready e.setting object)
      (e.setting.renderTop (bound + 5) routine (.object object)) after (r.map a.around) := by
    rw [← a.read_page r]
    refine yields_invoke a.page h.hooks hroutine (ofObjects_ready e.setting object)
      (fun _ hready => hready.empty) (fun i hi => ?_) bound after hready
    rw [a.eq_inclusion hi]
    exact hyields
  have hcompiled : e.compile a.print = (.ok routine, { e with store := after }) := by
    rw [Engine.compile]
    rw [EStateM.run, Stage.print, hcompile]
  have hempty : a.print.isEmpty = false := by
    rw [← Bool.not_eq_true, String.isEmpty_iff]
    exact a.print_ne_empty
  rw [Engine.renderValue]
  rw [hempty, if_neg Bool.false_ne_true, hcompiled, ← hheap]
  dsimp only
  rw [Engine.performRun]
  generalize r.map a.around = r at htop ⊢
  cases r with
  | error f =>
    obtain ⟨-, last, hfail, hsame⟩ := htop
    rw [EStateM.run, hfail]
    exact ⟨rfl, hsame⟩
  | ok text =>
    obtain ⟨last, hok, hgrows, -⟩ := htop
    rw [EStateM.run, hok]
    exact ⟨rfl, hgrows.sameShared⟩

/-- Rendering a stage without data puts what its fragment comes to between its texts; arrays and
objects stay. -/
theorem render_stage (h : e.Steady (inclusionHooks byName byValue) FromPage) (a : Stage)
    (hyields : ∀ object, Yields (Ready e.setting object)
      (e.setting.includeFragment (bound + 5) (.object object) nestingLimit a.target) r) :
    (e.render (bound + 5) (some a.print) (.object [])).1 = (r.map a.around).mapError .render
      ∧ SameShared (e.store.heap.ofJson (.object [])).2
          (e.render (bound + 5) (some a.print) (.object [])).2.store.heap := by
  obtain ⟨-, hholds⟩ := holds_ofJson e.store.heap (.object [])
  obtain ⟨object, vs, hobject, -, hmembers, hvs⟩ := hholds
  cases hvs
  have hrender : e.render (bound + 5) (some a.print) (.object [])
      = (e.make fun heap => heap.ofJson (.object [])).2.renderValue (bound + 5) (some a.print)
          (.object object) := by
    rw [← hobject]
    rfl
  rw [hrender]
  exact renderValue_stage (h.make fun heap => heap.ofJson (.object [])) hmembers a (hyields object)

end Rendering

section Limits

variable {e : Engine} {byName byValue : Nat}
  (h : e.Steady (inclusionHooks byName byValue) FromPage) {top : Stage} {path : List Stage}
  (hleads : Leads (e.setting.fragments.getD .empty) (top :: path)) (bound : Nat)

include h hleads

/-- A chain of ten stages or fewer is rendered as its text. -/
theorem render_shallow {last : TextRun}
    (hlast : ∀ b ∈ (top :: path).getLast?,
      (e.setting.fragments.getD .empty).get? b.target = some (String.ofList last.chars))
    (hshort : (top :: path).length ≤ 10) :
    (e.render (bound + 5) (some top.print) (.object [])).1
      = .ok (stagesText last (top :: path)) := by
  have hrender := render_stage h top fun _ =>
    yields_shallow h.hooks bound last top path hleads hlast hshort
  exact hrender.1

/-- A chain of more stages fails at the fragment that its eleventh stage includes; arrays and
objects stay. -/
theorem render_deep {b : Stage} (hb : (top :: path)[10]? = some b)
    (hthere : ((e.setting.fragments.getD .empty).get? b.target).isSome = true) :
    (e.render (bound + 5) (some top.print) (.object [])).1
        = .error (.render (.fragmentDepth b.target))
      ∧ SameShared (e.store.heap.ofJson (.object [])).2
          (e.render (bound + 5) (some top.print) (.object [])).2.store.heap :=
  render_stage h top fun _ => yields_deep h.hooks bound top path hleads hb hthere

/-- So does a chain whose last stage includes one of its stages, at the fragment of a stage. -/
theorem render_cycle
    (hback : ∀ b ∈ (top :: path).getLast?, ∃ c ∈ top :: path,
      (e.setting.fragments.getD .empty).get? b.target = some c.print) :
    ∃ b ∈ top :: path,
      (e.render (bound + 5) (some top.print) (.object [])).1
          = .error (.render (.fragmentDepth b.target))
        ∧ SameShared (e.store.heap.ofJson (.object [])).2
            (e.render (bound + 5) (some top.print) (.object [])).2.store.heap := by
  have hnext : ∀ a ∈ top :: path, ∃ b ∈ top :: path,
      (e.setting.fragments.getD .empty).get? a.target = some b.print := fun a ha =>
    (hleads.next_or_last a ha).elim id (hback a)
  obtain ⟨long, hlength, hlong, hmem⟩ := exists_leads hnext 10 top List.mem_cons_self
  have hinside : 10 < (top :: long).length := by
    rw [List.length_cons, hlength]
    omega
  have hstage : (top :: long)[10] ∈ top :: path := by
    rcases List.mem_cons.mp (List.getElem_mem hinside) with heq | hlater
    · rw [heq]
      exact List.mem_cons_self
    · exact hmem _ hlater
  obtain ⟨c, -, hthere⟩ := hnext _ hstage
  have hdeep := render_deep h hlong bound (List.getElem?_eq_getElem hinside)
    (Option.isSome_of_eq_some hthere)
  exact ⟨_, hstage, hdeep⟩

end Limits

/-- The name of the fragment that the last stage of a chain includes. -/
def lastTarget (top : Stage) (path : List Stage) : String :=
  ((top :: path).getLast (List.cons_ne_nil top path)).target

/-- No render runs a routine inside more than ten inclusions. -/
theorem Engine.not_meets_deeper (e : Engine) (bound : Nat) (template : Option String)
    (data : Heap → Value × Heap) :
    ¬ e.Meets bound template data fun event =>
      ∃ depth routine, event = .entered depth routine ∧ 10 < depth := by
  rintro ⟨watch, hheeds, hne⟩
  refine hne (e.renderWatched_eq bound template ?_ ?_ data)
  · intro f
    refine hheeds _ ?_
    rintro ⟨depth, routine, heq, -⟩
    cases heq
  · intro depth routine hdepth
    refine hheeds _ ?_
    rintro ⟨depth', routine', heq, hdeep⟩
    cases heq
    have hlimit : nestingLimit = 10 := rfl
    omega

/-- **Ten inclusions may nest, and no more.**  On every engine on which fragments were installed,
whatever it was used for since, and for every chain of stages, of which each includes the fragment
that the next one is: if the last one includes a text, the chain is rendered as the texts in their
order if it has ten stages or fewer, and otherwise fails at the fragment that its eleventh stage
includes.  If the last one includes a stage of the chain, rendering fails in the same way.  And
whatever is rendered on whatever engine, no routine is ever run inside more than ten inclusions. -/
theorem fragments_nest_ten :
    (∃ need, ∀ (store : Store) (codes : Array Helper) (cap : Nat) (ops : List Operation),
      (∀ op ∈ ops, op.isPlain = true) →
      ∀ e, e = ((Engine.onStore store codes cap).use .fragments).after ops →
      ∀ registry, registry = e.setting.fragments.getD .empty →
      ∀ (top : Stage) (path : List Stage), Leads registry (top :: path) →
      ∀ bound, need ≤ bound →
        (∀ last : TextRun, registry.get? (lastTarget top path) = some (String.ofList last.chars) →
          ((top :: path).length ≤ 10 → (e.render bound (some top.print) (.object [])).1
              = .ok (stagesText last (top :: path)))
          ∧ ∀ hlong : 10 < (top :: path).length,
            (e.render bound (some top.print) (.object [])).1
              = .error (.render (.fragmentDepth (top :: path)[10].target)))
        ∧ ((∃ back ∈ top :: path, registry.get? (lastTarget top path) = some back.print) →
          ∃ stage ∈ top :: path, (e.render bound (some top.print) (.object [])).1
            = .error (.render (.fragmentDepth stage.target))))
    ∧ ∀ (e : Engine) (bound : Nat) (template : Option String) (data : Heap → Value × Heap),
        ¬ e.Meets bound template data fun event =>
          ∃ depth routine, event = .entered depth routine ∧ 10 < depth := by
  refine ⟨⟨5, ?_⟩, Engine.not_meets_deeper⟩
  rintro store codes cap ops hops e rfl registry rfl top path hleads bound hbound
  obtain ⟨bound, rfl⟩ : ∃ b, bound = b + 5 := ⟨bound - 5, by omega⟩
  obtain ⟨byName, byValue, hsteady⟩ := steady_fragments store codes cap FromPage
  have h := hsteady.after (fun s hhooks => fromPage_of_new hhooks) hops
  generalize ((Engine.onStore store codes cap).use .fragments).after ops = e at hleads h ⊢
  have hlastStage : ∀ b ∈ (top :: path).getLast?, b.target = lastTarget top path := by
    intro b hb
    rw [List.getLast?_eq_some_getLast (List.cons_ne_nil top path)] at hb
    cases hb
    rfl
  refine ⟨fun last hlast => ⟨fun hshort => ?_, fun hlong => ?_⟩, fun hback => ?_⟩
  · refine render_shallow h hleads bound (fun b hb => ?_) hshort
    rw [hlastStage b hb]
    exact hlast
  · refine (render_deep h hleads bound (List.getElem?_eq_getElem hlong) ?_).1
    -- The fragment is the next stage or the text.
    rcases hleads.next_or_last _ (List.getElem_mem hlong) with ⟨b, -, hb⟩ | hend
    · exact Option.isSome_of_eq_some hb
    · rw [hlastStage _ hend]
      exact Option.isSome_of_eq_some hlast
  · obtain ⟨stage, hstage, hrender, -⟩ := render_cycle h hleads bound fun b hb => by
      rw [hlastStage b hb]
      exact hback
    exact ⟨stage, hstage, hrender⟩

/-- The name of this many letters and one more. -/
def rungName (n : Nat) : Identifier where
  chars := List.replicate (n + 1) 'p'
  valid := by
    rw [List.replicate_succ, isIdentifier, List.all_replicate]
    split <;> decide

/-- A stage that includes the fragment of a name, outright or by the value of a literal. -/
def rung (n : Nat) : Stage where
  before := .less
  inclusion :=
    { name := rungName n
      target := if n % 2 = 0 then .named [] [] nofun nofun else .chosen (.quoted (rungName n))
      front := [' ']
      back := [' ']
      blank_front := List.forall_mem_singleton.mpr (by decide)
      blank_back := List.forall_mem_singleton.mpr (by decide) }
  after := ⟨['>'], by decide, by decide⟩

/-- A stage that includes a fragment, which is itself once it is registered. -/
def loop : Stage where
  before := .dash
  inclusion :=
    { name := ⟨['c'], by decide⟩
      target := .named ['"'] ['"'] (List.forall_mem_singleton.mpr rfl)
        (List.forall_mem_singleton.mpr rfl)
      front := []
      back := []
      blank_front := nofun
      blank_back := nofun }
  after := .empty

/-- Stages that are fragments of each other, with a text behind the eleventh one. -/
def ladder : List Operation :=
  (List.range 10).map (fun n => .registerFragment (rung n).target (rung (n + 1)).print)
    ++ [.registerFragment (rung 10).target "x", .registerFragment loop.target loop.print, .clear]

theorem fragments_nest_ten_ladder :
    (rung 0).print = "<[[> p ]]>" ∧ (rung 1).print = "<[[> (\"pp\") ]]>"
      ∧ loop.print = "-[[>\"c\"]]"
      ∧ ∃ need, ∀ bound, need ≤ bound →
        ((((Engine.create 8).use .fragments).after ladder).render bound (some (rung 1).print)
            (.object [])).1 = .ok "<<<<<<<<<<x>>>>>>>>>>"
          ∧ ((((Engine.create 8).use .fragments).after ladder).render bound (some (rung 0).print)
            (.object [])).1 = .error (.render (.fragmentDepth "ppppppppppp"))
          ∧ ((((Engine.create 8).use .fragments).after ladder).render bound (some loop.print)
            (.object [])).1 = .error (.render (.fragmentDepth "c")) := by
  refine ⟨by decide +kernel, by decide +kernel, by decide +kernel, ?_⟩
  obtain ⟨⟨need, h⟩, -⟩ := fragments_nest_ten
  refine ⟨need, fun bound hbound => ?_⟩
  have hrun := h {} #[] 8 ladder (by decide +kernel) _ rfl _ rfl
  have hshort := hrun (rung 1) ((List.range 9).map fun n => rung (n + 2))
    (by unfold Leads; decide +kernel) bound hbound
  have hlong := hrun (rung 0) ((List.range 10).map fun n => rung (n + 1))
    (by unfold Leads; decide +kernel) bound hbound
  have hcycle := hrun loop [] (.singleton loop) bound hbound
  have hx := hshort.1 ⟨['x'], by decide, by decide⟩ (by decide +kernel)
  have hx' := hlong.1 ⟨['x'], by decide, by decide⟩ (by decide +kernel)
  obtain ⟨stage, hstage, hloop⟩ := hcycle.2 ⟨loop, List.mem_cons_self, by decide +kernel⟩
  cases List.mem_singleton.mp hstage
  refine ⟨?_, ?_, ?_⟩
  · have htext : stagesText ⟨['x'], by decide, by decide⟩
        (rung 1 :: (List.range 9).map fun n => rung (n + 2)) = "<<<<<<<<<<x>>>>>>>>>>" := by
      decide +kernel
    rw [← htext]
    exact hx.1 (by decide)
  · have hname : (rung 10).target = "ppppppppppp" := by decide +kernel
    rw [← hname]
    exact hx'.2 (by decide)
  · have hname : loop.target = "c" := by decide +kernel
    rw [← hname]
    exact hloop

end Stencil
