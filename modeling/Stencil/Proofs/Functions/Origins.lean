import Mathlib.Order.Basic
import Stencil.Proofs.QuietSteps
import Stencil.Proofs.Functions.Sites

/-!
# Where functions come from

A native function was made in one act, and a function of a routine is written in a routine that was
compiled.  Whatever routines do, they make functions in no other way.  So there is always an account
of what was made so far, in which all functions that are kept anywhere have their place, and which
only grows.

* `Origins` — what was made so far; `w ≤ w'` says that more was made;
* `Origins.Has`, `Origins.Describes` — values and stores whose functions have their origin there;
* `Origins.Traces` — steps that keep to that, whether they fail or not;
* `Traces.quiet`, `Traces.withFrame`, `Traces.valueOf` and others — the steps of routines;
* `Everything.eval_succ`, `Everything.exec_succ`, `Everything.call_succ` — one layer of expressions,
  statements and calls;
* `Origins.everything` — all of them.
-/

namespace Stencil.Routine

/-- What was made so far, in the order of making. -/
structure Origins where
  /-- The native functions. -/
  natives : List (String × Native) := []
  /-- The routines that were compiled, as they were before their functions were numbered. -/
  routines : List Program := []

namespace Origins

/-- More was made. -/
instance : Preorder Origins where
  le w w' := w.natives <+: w'.natives ∧ w.routines <+: w'.routines
  le_refl _ := ⟨List.prefix_refl _, List.prefix_refl _⟩
  le_trans _ _ _ h h' := ⟨h.1.trans h'.1, h.2.trans h'.2⟩

variable {w w' : Origins}

/-- The function is written in the routine with the number. -/
def Writes (w : Origins) (r : Nat) (a : Arrow) : Prop :=
  ∃ p, w.routines[r]? = some p ∧ a ∈ p.numbered.arrows

theorem getElem?_of_prefix {α : Type} {as bs : List α} (h : as <+: bs) {i : Nat} {a : α}
    (ha : as[i]? = some a) : bs[i]? = some a := by
  obtain ⟨rest, rfl⟩ := h
  rw [List.getElem?_append_left (List.getElem?_eq_some_iff.mp ha).1, ha]

theorem Writes.mono (hw : w ≤ w') {r : Nat} {a : Arrow} (h : w.Writes r a) : w'.Writes r a := by
  obtain ⟨p, hp, ha⟩ := h
  exact ⟨p, getElem?_of_prefix hw.2 hp, ha⟩

/-- Functions at one place of a routine are one function. -/
theorem Writes.eq {r : Nat} {a b : Arrow} (ha : w.Writes r a) (hb : w.Writes r b)
    (hsite : a.site = b.site) : a = b := by
  obtain ⟨p, hp, ha⟩ := ha
  obtain ⟨q, hq, hb⟩ := hb
  cases hp.symm.trans hq
  exact Program.eq_of_site_eq ha hb hsite

/-! ### Values and stores -/

open Classical in
/-- Heaps whose functions have their origin in what was made. -/
noncomputable def realm (w : Origins) : Realm where
  arrays _ := True
  objects _ := True
  frames _ := True
  natives identity name code := w.natives[identity]? = some (name, code)
  exprs r := Expr.listed fun a => decide (w.Writes r a)
  stmts _ _ := true

/-- The value has its origin in what was made. -/
def Has (w : Origins) (v : Value) : Prop := w.realm.Has v

/-- The values have. -/
def HasAll (w : Origins) (vs : List Value) : Prop := w.realm.HasAll vs

/-- All functions that are written in the expression are those of the routine. -/
def Admits (w : Origins) (r : Nat) (e : Expr) : Prop := w.realm.Admits r e

/-- All functions that are written in the statement are those of the routine. -/
def AdmitsStmt (w : Origins) (r : Nat) (s : Stmt) : Prop := w.realm.AdmitsStmt r s

theorem hasLink (w : Origins) (l : Link) : w.realm.HasLink l := by
  cases l with
  | locals place => trivial
  | members object guarded => cases object <;> trivial

theorem admits_iff {r : Nat} {e : Expr} : w.Admits r e ↔ ∀ a ∈ e.arrows, w.Writes r a := by
  simp only [Admits, Realm.Admits, realm, Expr.every_listed, List.all_eq_true, decide_eq_true_eq]

theorem admitsStmt_iff {r : Nat} {s : Stmt} :
    w.AdmitsStmt r s ↔ ∀ a ∈ s.arrows, w.Writes r a := by
  simp only [AdmitsStmt, Realm.AdmitsStmt, realm, Stmt.every_listed, List.all_eq_true,
    decide_eq_true_eq]

theorem has_closure_iff {r site : Nat} {params : List String} {body : Body} {scope : Scope} :
    w.Has (.closure r site params body scope) ↔ w.Admits r (.arrow site params body) :=
  ⟨fun h => h.1, fun h => ⟨h, fun l _ => w.hasLink l⟩⟩

theorem Admits.mono (hw : w ≤ w') {r : Nat} {e : Expr} (h : w.Admits r e) : w'.Admits r e :=
  admits_iff.mpr fun a ha => (admits_iff.mp h a ha).mono hw

theorem AdmitsStmt.mono (hw : w ≤ w') {r : Nat} {s : Stmt} (h : w.AdmitsStmt r s) :
    w'.AdmitsStmt r s :=
  admitsStmt_iff.mpr fun a ha => (admitsStmt_iff.mp h a ha).mono hw

theorem Has.mono (hw : w ≤ w') {v : Value} (h : w.Has v) : w'.Has v := by
  cases v with
  | native name code identity => exact getElem?_of_prefix hw.1 h
  | closure r site params body scope => exact has_closure_iff.mpr ((has_closure_iff.mp h).mono hw)
  | undefined | null | bool | number | text | array | object => trivial

theorem HasAll.mono (hw : w ≤ w') {vs : List Value} (h : w.HasAll vs) : w'.HasAll vs :=
  fun v hv => Has.mono hw (h v hv)

theorem keeps_mono (hw : w ≤ w') {h : Heap} (hh : w.realm.Keeps h) : w'.realm.Keeps h where
  free_arrays _ _ := trivial
  free_objects _ _ := trivial
  free_frames _ _ := trivial
  items place _ v hv := Has.mono hw (hh.items place trivial v hv)
  members place _ e he := Has.mono hw (hh.members place trivial e he)
  bindings place _ b hb := Has.mono hw (hh.bindings place trivial b hb)

/-- The routine is one of those that were compiled, under its number. -/
def Compiles (w : Origins) (c : Compiled) : Prop :=
  ∃ p, w.routines[c.number]? = some p ∧ c.program = p.numbered

theorem Compiles.mono (hw : w ≤ w') {c : Compiled} (h : w.Compiles c) : w'.Compiles c := by
  obtain ⟨p, hp, heq⟩ := h
  exact ⟨p, getElem?_of_prefix hw.2 hp, heq⟩

/-- The functions of a compiled routine are written under its number. -/
theorem Compiles.writes {c : Compiled} (h : w.Compiles c) {a : Arrow} (ha : a ∈ c.program.arrows) :
    w.Writes c.number a := by
  obtain ⟨p, hp, heq⟩ := h
  exact ⟨p, hp, heq ▸ ha⟩

/-- The native functions of the heap are the ones that were made, and all that it keeps has its
origin there. -/
structure Fills (w : Origins) (h : Heap) : Prop where
  keeps : w.realm.Keeps h
  natives : h.identities = w.natives.length

theorem Fills.leads {g h : Heap} (hg : w.Fills g) (hgh : w.realm.Leads g h) : w.Fills h :=
  ⟨hgh.keeps, hgh.identities.trans hg.natives⟩

/-- So is the heap of the store, and so are the routines that it counts and keeps. -/
structure Describes (w : Origins) (s : Store) : Prop where
  heap : w.Fills s.heap
  routines : s.compiled = w.routines.length
  kept : ∀ template c, s.cache.get? template = some c → w.Compiles c

/-- At a stage at which no other routines were compiled, the store may have another heap. -/
theorem Describes.withHeap {s : Store} (hs : w.Describes s) {h : Heap} (hw : w ≤ w')
    (hroutines : w'.routines = w.routines) (hh : w'.Fills h) :
    w'.Describes { s with heap := h } :=
  ⟨hh, hroutines ▸ hs.routines, fun template c hc => (hs.kept template c hc).mono hw⟩

/-- The act on heaps may make native functions.  Whatever else it makes has its origin in what was
made. -/
def Acts {α : Type} (w : Origins) (P : Origins → α → Prop) (act : Heap → α × Heap) : Prop :=
  ∀ w', w ≤ w' → ∀ g, w'.Fills g → ∃ w'', w' ≤ w'' ∧ w''.routines = w'.routines
    ∧ w''.Fills (act g).2 ∧ P w'' (act g).1

/-! ### Steps -/

variable {α β : Type}

/-- From a stage on, steps come to a value with the property, or to none, and to a store that was
made so. -/
inductive Comes (w : Origins) (P : Origins → α → Prop) : EStateM.Result Halt Store α → Prop where
  | ok {w' : Origins} {a : α} {t : Store} (later : w ≤ w') (store : w'.Describes t) (h : P w' a) :
    Comes w P (.ok a t)
  | error {w' : Origins} {halt : Halt} {t : Store} (later : w ≤ w') (store : w'.Describes t) :
    Comes w P (.error halt t)

theorem Comes.later (hw : w ≤ w') {P : Origins → α → Prop} {r : EStateM.Result Halt Store α}
    (h : w'.Comes P r) : w.Comes P r := by
  cases h with
  | ok later store h => exact .ok (hw.trans later) store h
  | error later store => exact .error (hw.trans later) store

/-- The steps keep to what was made, from this stage or a later one. -/
def Traces (w : Origins) (P : Origins → α → Prop) (m : Run α) : Prop :=
  ∀ w', w ≤ w' → ∀ s, w'.Describes s → w'.Comes P (m s)

/-- No property is asked for. -/
def Any (_ : Origins) (_ : α) : Prop := True

/-- Values that functions give back have their origin in what was made. -/
def HasFlow (w : Origins) : Flow → Prop
  | .giveBack v => w.Has v
  | _ => True

/-- So do those with which a round ends its loop. -/
def HasEnding (w : Origins) (ending : Option Flow) : Prop := ∀ flow ∈ ending, w.HasFlow flow

theorem HasFlow.mono (hw : w ≤ w') {flow : Flow} (h : w.HasFlow flow) : w'.HasFlow flow := by
  cases flow with
  | giveBack v => exact Has.mono hw h
  | onward | leave | skip => trivial

theorem HasFlow.result {flow : Flow} (h : w.HasFlow flow) : w.Has flow.result := by
  cases flow with
  | giveBack v => exact h
  | onward | leave | skip => trivial

theorem HasFlow.afterRound {flow : Flow} (h : w.HasFlow flow) : w.HasEnding flow.afterRound := by
  intro ending hending
  cases flow with
  | giveBack v =>
    cases hending
    exact h
  | leave =>
    cases hending
    trivial
  | onward | skip => cases hending

namespace Traces

variable {P : Origins → α → Prop} {Q : Origins → β → Prop} {m : Run α} {f : α → Run β}

theorem mono (hw : w ≤ w') (h : w.Traces P m) : w'.Traces P m :=
  fun w'' hw' => h w'' (hw.trans hw')

/-- Steps that keep every realm. -/
theorem quiet (h : ∀ w', w ≤ w' → w'.realm.Quiet (P w') m) : w.Traces P m := by
  intro w' hw s hs
  have passes {t : Store} (ht : w'.realm.Passes s t) : w'.Describes t :=
    ht.store ▸ hs.withHeap le_rfl rfl (hs.heap.leads ht.leads)
  cases hm : m s with
  | ok a t =>
    obtain ⟨ht, hP⟩ := (h w' hw).ok hs.heap.keeps hm
    exact .ok le_rfl (passes ht) hP
  | error halt t => exact .error le_rfl (passes ((h w' hw).halted hs.heap.keeps hm))

theorem pure {a : α} (h : ∀ w', w ≤ w' → P w' a) : w.Traces P (Pure.pure a) :=
  quiet fun w' hw => .pure (h w' hw)

theorem value {v : Value} (h : w.Has v) : w.Traces Has (Pure.pure v) := pure fun _ hw => h.mono hw

theorem any {a : α} : w.Traces Any (Pure.pure a) := pure fun _ _ => trivial

theorem fail (e : Failure) : w.Traces P (Run.fail e : Run α) := quiet fun _ _ => .fail e

theorem endless : w.Traces P (Run.endless : Run α) := quiet fun _ _ => .endless

theorem looks (h : Looks m) : w.Traces Any m := quiet fun _ _ => .looks h

theorem bind (hm : w.Traces P m) (hf : ∀ w', w ≤ w' → ∀ a, P w' a → w'.Traces Q (f a)) :
    w.Traces Q (m >>= f) := by
  intro w' hw s hs
  have hfirst := hm w' hw s hs
  cases ha : m s with
  | ok a t =>
    rw [ha] at hfirst
    cases hfirst with
    | @ok w'' _ _ later store hP =>
      rw [run_bind_ok ha]
      exact (hf w'' (hw.trans later) a hP w'' le_rfl t store).later later
  | error halt t =>
    rw [ha] at hfirst
    cases hfirst with
    | error later store =>
      rw [run_bind_error ha]
      exact .error later store

/-- What follows steps of which nothing is asked. -/
theorem andThen (hm : w.Traces Any m) (hf : ∀ a, w.Traces Q (f a)) : w.Traces Q (m >>= f) :=
  hm.bind fun _ hw a _ => (hf a).mono hw

/-- What follows a step that only looks. -/
theorem look (hm : Looks m) (hf : ∀ a, w.Traces Q (f a)) : w.Traces Q (m >>= f) :=
  (looks hm).andThen hf

theorem mapM {f : α → Run β} {as : List α} (hmono : ∀ {w w'}, w ≤ w' → ∀ {b}, Q w b → Q w' b)
    (h : ∀ a ∈ as, w.Traces Q (f a)) :
    w.Traces (fun w' bs => ∀ b ∈ bs, Q w' b) (as.mapM f) := by
  induction as with
  | nil => exact pure fun _ _ => nofun
  | cons a as ih =>
    obtain ⟨ha, has⟩ := List.forall_mem_cons.mp h
    rw [List.mapM_cons]
    exact ha.bind fun w₁ hw₁ b hb => ((ih has).mono hw₁).bind fun w₂ hw₂ bs hbs =>
      pure fun w₃ hw₃ => List.forall_mem_cons.mpr
        ⟨hmono (hw₂.trans hw₃) hb, fun b hmem => hmono hw₃ (hbs b hmem)⟩

theorem forM {f : α → Run PUnit} {as : List α} (h : ∀ a ∈ as, w.Traces Any (f a)) :
    w.Traces Any (as.forM f) := by
  induction as with
  | nil => exact any
  | cons a as ih =>
    obtain ⟨ha, has⟩ := List.forall_mem_cons.mp h
    exact ha.andThen fun _ => ih has

/-! ### Statements in a row and loops -/

theorem flow {flow : Flow} (h : w.HasFlow flow) : w.Traces HasFlow (Pure.pure flow) :=
  pure fun _ hw => h.mono hw

theorem inOrder {run : Stmt → Run Flow} {ss : List Stmt}
    (h : ∀ s ∈ ss, w.Traces HasFlow (run s)) : w.Traces HasFlow (inOrder run ss) := by
  induction ss with
  | nil => exact pure fun _ _ => trivial
  | cons s ss ih =>
    obtain ⟨hs, hss⟩ := List.forall_mem_cons.mp h
    refine hs.bind fun w' hw flow hflow => ?_
    cases flow with
    | onward => exact (ih hss).mono hw
    | leave | skip | giveBack => exact .flow hflow

theorem eachItem {round : Value → Run Flow} {vs : List Value}
    (h : ∀ v ∈ vs, w.Traces HasFlow (round v)) : w.Traces HasFlow (eachItem round vs) := by
  induction vs with
  | nil => exact pure fun _ _ => trivial
  | cons v vs ih =>
    obtain ⟨hv, hvs⟩ := List.forall_mem_cons.mp h
    refine hv.bind fun w' hw flow hflow => ?_
    cases hending : flow.afterRound with
    | none => exact (ih hvs).mono hw
    | some flow' => exact .flow (hflow.afterRound flow' hending)

theorem repeatedly {round : Run (Option Flow)} (h : w.Traces HasEnding round) (bound : Nat) :
    w.Traces HasFlow (repeatedly round bound) := by
  induction bound with
  | zero => exact endless
  | succ bound ih =>
    refine h.bind fun w' hw flow hflow => ?_
    cases flow with
    | none => exact ih.mono hw
    | some flow => exact .flow (hflow flow rfl)

theorem ending {flow : Option Flow} (h : w.HasEnding flow) : w.Traces HasEnding (Pure.pure flow) :=
  pure fun _ hw flow hflow => (h flow hflow).mono hw

/-! ### Variables and names -/

theorem make {act : Heap → α × Heap} (h : w.Acts P act) : w.Traces P (Run.make act) := by
  intro w' hw s hs
  obtain ⟨w'', hlater, hroutines, hfills, hP⟩ := h w' hw s.heap hs.heap
  exact .ok hlater (hs.withHeap hlater hroutines hfills) hP

/-- Steps that change the heap and make no native function. -/
theorem change {act : Heap → Heap} (h : ∀ w', w ≤ w' → ∀ g, w'.realm.Keeps g →
    w'.realm.Keeps (act g) ∧ (act g).identities = g.identities) :
    w.Traces Any (Run.change act) := by
  intro w' hw s hs
  obtain ⟨hkeeps, hidentities⟩ := h w' hw s.heap hs.heap.keeps
  exact .ok le_rfl (hs.withHeap le_rfl rfl ⟨hkeeps, hidentities.trans hs.heap.natives⟩) trivial

/-- Scopes may show anything. -/
theorem withFrame (scope : Scope) : w.Traces Any (withFrame scope) := by
  refine (make (P := Any) fun w' _ g hg => ?_).andThen fun _ => any
  exact ⟨w', le_rfl, rfl, ⟨hg.keeps.newFrame, hg.natives⟩, trivial⟩

theorem declareName (scope : Scope) (name : String) {v : Value} (hv : w.Has v)
    (changeable : Bool) : w.Traces Any (declareName scope name v changeable) := by
  refine change fun w' hw g hg => ?_
  unfold Heap.declare
  split
  · exact ⟨hg.setLocal _ name (hv.mono hw), rfl⟩
  · exact ⟨hg, rfl⟩

theorem bindParams (scope : Scope) (params : List String) {args : List Value}
    (hargs : w.HasAll args) : w.Traces Any (bindParams scope params args) := by
  have hundefined : w.Has .undefined := trivial
  induction params generalizing args with
  | nil => exact any
  | cons name params ih =>
    cases args with
    | nil => exact (declareName scope name hundefined true).andThen fun _ => ih hargs
    | cons v vs =>
      obtain ⟨hv, hvs⟩ := List.forall_mem_cons.mp hargs
      exact (declareName scope name hv true).andThen fun _ => ih hvs

theorem assignName (scope : Scope) (name : String) {v : Value} (hv : w.Has v) :
    w.Traces Any (assignName scope name v) := by
  refine (make (P := Any) fun w' hw g hg => ?_).andThen fun r => ?_
  · refine ⟨w', le_rfl, rfl, ?_, trivial⟩
    unfold Heap.assign
    split
    · unfold Heap.assignAt
      split
      · split
        · split
          · exact ⟨hg.keeps.setLocal _ name (hv.mono hw), hg.natives⟩
          · exact hg
        · exact hg
      · exact hg.leads (hg.keeps.setMember _ name (hv.mono hw))
      · exact hg
    · exact hg
  · cases r with
    | ok u => exact any
    | error e => exact fail e

end Traces

/-! ### Native functions -/

/-- A native function is made. -/
theorem acts_newNative (w : Origins) (name : String) (code : Native) :
    w.Acts Has fun h => h.newNative name code := by
  intro w' _ g hg
  have hlater : w' ≤ ⟨w'.natives ++ [(name, code)], w'.routines⟩ :=
    ⟨List.prefix_append _ _, List.prefix_refl _⟩
  refine ⟨_, hlater, rfl, ⟨keeps_mono hlater (hg.keeps.newNative name code).1, ?_⟩, ?_⟩
  · show g.identities + 1 = _
    rw [hg.natives, List.length_append, List.length_singleton]
  · show (w'.natives ++ [(name, code)])[g.identities]? = _
    rw [hg.natives, List.getElem?_concat_length]

/-- Native functions are made one after the other, as members of an object. -/
theorem acts_newNatives (w : Origins) (functions : List (String × Native)) :
    w.Acts Has fun h => h.newNatives functions := by
  -- The stage grows with each of them, and the members so far have their origin at it.
  have hmade : ∀ (w₁ : Origins) (start : Roster Value × Heap), w₁.Fills start.2 →
      (∀ e ∈ start.1.entries, w₁.Has e.2) → ∃ w₂, w₁ ≤ w₂ ∧ w₂.routines = w₁.routines
        ∧ w₂.Fills (Likeness.collectNatives functions start).2
        ∧ ∀ e ∈ (Likeness.collectNatives functions start).1.entries, w₂.Has e.2 := by
    induction functions with
    | nil => exact fun w₁ start hstart hentries => ⟨w₁, le_rfl, rfl, hstart, hentries⟩
    | cons f fs ih =>
      intro w₁ start hstart hentries
      obtain ⟨w₂, hlater, hroutines, hfills, hhas⟩ :=
        acts_newNative w₁ f.1 f.2 w₁ le_rfl start.2 hstart
      obtain ⟨w₃, hlater', hroutines', hfills', hall⟩ := ih w₂ (start.1.insert f.1 _, _) hfills
        fun e he => (mem_putName he).elim (fun he => (hentries e he).mono hlater)
          fun heq => heq ▸ hhas
      exact ⟨w₃, hlater.trans hlater', hroutines'.trans hroutines, hfills', hall⟩
  intro w' _ g hg
  obtain ⟨w'', hlater, hroutines, hfills, hall⟩ := hmade w' (.empty, g) hg nofun
  obtain ⟨hleads, hhas⟩ := hfills.keeps.newObject hall
  exact ⟨w'', hlater, hroutines, hfills.leads hleads, hhas⟩

/-- An act that leaves the heap as it is. -/
theorem acts_same {v : Value} (hv : ∀ w', w ≤ w' → w'.Has v) : w.Acts Has fun h => (v, h) :=
  fun w' hw _ hg => ⟨w', le_rfl, rfl, hg, hv w' hw⟩

namespace Traces

theorem global {name : String} {act : Heap → Value × Heap} (h : global? name = some act) :
    w.Traces Has (Run.make act) := by
  refine make ?_
  unfold global? at h
  split at h <;> cases h
  · exact acts_same fun _ _ => trivial
  · exact acts_same fun _ _ => trivial
  all_goals first
    | exact acts_newNatives w _
    | exact acts_newNative w _ _

theorem valueOf (scope : Scope) (name : String) : w.Traces Has (valueOf scope name) := by
  have hheap : w.Traces (fun w' h => w'.realm.Keeps h) Run.heap := quiet fun _ _ => .heap
  refine hheap.bind fun w' _ h hh => ?_
  cases hfound : h.find? name scope with
  | some v => exact value (hh.find? (fun l _ => w'.hasLink l) hfound)
  | none =>
    dsimp only
    split
    · exact fail _
    · cases hglobal : global? name with
      | none => exact fail _
      | some act => exact global hglobal

end Traces

end Origins

end Stencil.Routine
