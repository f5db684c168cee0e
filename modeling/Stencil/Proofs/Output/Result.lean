import Stencil.Proofs.DataScope
import Stencil.Proofs.Onward
import Stencil.Proofs.Output.Written

/-!
# Routines give back what they wrote

A routine declares its output, adds to it and gives it back at the end.  If its statements only add
to the output and let each other follow, what the routine gives back is the text of its record.

* `Recording.exists_of_exec_write` — writing adds one piece to the record;
* `Recording.exists_of_inOrder_append` — behind statements that go on the others follow;
* `IsWritten.result_eq`, `IsWritten.begins_of_write` — statements behind the declaration;
* `program_written` — a whole routine.
-/

namespace Stencil.Routine

open Reading Template

namespace Recording

variable {record record' : List String} {s t : Store}

/-- What comes behind statements that go on. -/
theorem exists_of_inOrder_append {bound : Nat} {around : Surroundings} {scope : Scope}
    {stmts later : List Stmt} (hgoes : stmtsGoOn false stmts = true) {flow : Flow}
    (h : inOrder (exec bound around scope) (stmts ++ later) record s = .ok (flow, record') t) :
    ∃ between u, inOrder (exec bound around scope) stmts record s = .ok (.onward, between) u
      ∧ inOrder (exec bound around scope) later between u = .ok (flow, record') t := by
  induction stmts generalizing record s with
  | nil => exact ⟨record, s, rfl, h⟩
  | cons stmt stmts ih =>
    obtain ⟨hstmt, hstmts⟩ := Bool.and_eq_true_iff.mp hgoes
    obtain ⟨first, between, u, hfirst, hrest⟩ := exists_of_bind_ok h
    have hrun := ((faithful bound).exec around scope stmt).of_ok hfirst
    cases Flow.eq_onward (comesTo_exec bound around scope hstmt _ _ _ hrun)
    obtain ⟨between', u', hfront, hlater⟩ := ih hstmts hrest
    exact ⟨between', u', (bind_ok hfirst).trans hfront, hlater⟩

/-- **Writing adds one piece to what was written before**, the text of what is written. -/
theorem exists_of_exec_write {bound : Nat} {around : Surroundings} {scope : Scope} {e : Expr}
    {flow : Flow}
    (h : exec bound around scope (writeStmt e) record s = .ok (flow, record') t) :
    ∃ bound' v between u piece,
      eval bound' around scope e record s = .ok (v, between) u ∧ u.heap.display v = some piece
      ∧ (u.heap.isVariable outputName scope = true → record' = record ++ [piece]) := by
  match bound, h with
  | bound + 2, h =>
    obtain ⟨_, between, u, hassign, hend⟩ := exists_of_bind_ok h
    cases hend
    obtain ⟨_, _, _, hget, hfromTarget⟩ := exists_of_bind_ok hassign
    cases hget
    obtain ⟨old, record₁, s₁, hold, hfromValue⟩ := exists_of_bind_ok hfromTarget
    obtain ⟨hfound, rfl⟩ := valueOf_of_eval hold
    obtain ⟨-, rfl⟩ := valueOf_ok rfl hfound
    obtain ⟨v, between, u, hvalue, hfromHeap⟩ := exists_of_bind_ok hfromValue
    obtain ⟨heap, _, _, hheap, hfromSum⟩ := exists_of_bind_ok hfromHeap
    cases hheap
    obtain ⟨sum, record₂, s₂, hsum, hfromAssign⟩ := exists_of_bind_ok hfromSum
    obtain ⟨hcomputed, -⟩ := ok_of_lift hsum
    obtain ⟨hv, -⟩ := finite_eq_ok hcomputed
    obtain ⟨piece, hpiece⟩ := Heap.exists_display_of_sum hv
    refine ⟨_, v, between, u, piece, hvalue, hpiece, fun hvariable => ?_⟩
    obtain ⟨_, record₃, s₃, -, hset⟩ := exists_of_bind_ok hfromAssign
    have hwritten : u.heap.written? scope .add (.name outputName) v = some piece := by
      rw [Heap.written?, if_pos ⟨rfl, hvariable⟩, hpiece]
    rw [hwritten] at hset
    cases hset
    rfl

end Recording

/-! ### Statements behind the declaration -/

/-- The statement that gives back the output. -/
def giveOutput : Stmt := .giveBack (some (.name outputName))

section Behind

variable {start : Heap} {ask : Service → List Value → Run Value} (hask : (silent start).Serves ask)
  {place : Nat} {scope : Scope} {bound r calls : Nat} {record record' : List String} {s t : Store}

include hask in
/-- Statements that leave the output alone keep it what was written. -/
theorem minds_written (first : List String) {stmts : List Stmt}
    (hleaves : ∀ s ∈ stmts, s.every Expr.leavesOutput Stmt.leavesOutput = true)
    (hscope : ∀ l ∈ scope, (writtenRealm start).HasLink l) :
    (written start place first).Minds (written start place first).HasFlow
      (Recording.inOrder (Recording.exec bound ⟨ask, r, calls⟩ scope) stmts) :=
  .inOrder fun s hmem =>
    (Account.everything (A := written start place first) hask bound).exec r calls hscope
      (hleaves s hmem)

include hask in
/-- What a text that is written first adds stays in front. -/
theorem IsWritten.begins_of_write {text : String} {later : List Stmt}
    (hleaves : ∀ s ∈ later, s.every Expr.leavesOutput Stmt.leavesOutput = true)
    (hscope : ∀ l ∈ Link.locals place :: scope, (writtenRealm start).HasLink l)
    (hkeeps : (writtenRealm start).Keeps s.heap) (hw : IsWritten start place [] [] s.heap)
    {flow : Flow}
    (h : Recording.inOrder (Recording.exec bound ⟨ask, r, calls⟩ (.locals place :: scope))
      (writeStmt (.text text) :: later) [] s = .ok (flow, record') t) :
    [text] <+: record' := by
  obtain ⟨first, between, u, hfirst, hrest⟩ := Recording.exists_of_bind_ok h
  obtain ⟨bound', v, _, _, piece, hvalue, hpiece, hpushed⟩ := Recording.exists_of_exec_write hfirst
  have hbetween : between = [text] := by
    match bound', hvalue with
    | bound' + 1, hvalue =>
      cases hvalue
      cases hpiece.symm.trans (display_text s.heap text)
      exact hpushed (Heap.isVariable_iff.mpr ⟨place, hw.holder? scope⟩)
  subst hbetween
  have hwrite : (writeStmt (.text text)).every Expr.leavesOutput Stmt.leavesOutput = true := rfl
  obtain ⟨hgoes, -⟩ := (Account.everything (A := written start place []) hask bound).exec r calls
    hscope hwrite _ _ _ _ _ hkeeps hw hfirst
  have hbegun : IsWritten start place [text] [text] u.heap :=
    ⟨List.prefix_refl _, hgoes.holds.output, hgoes.holds.others⟩
  cases first with
  | onward =>
    exact (minds_written hask [text] hleaves hscope _ _ _ _ _ hgoes.keeps hbegun
      hrest).1.holds.begins
  | leave | skip | giveBack =>
    cases hrest
    exact List.prefix_refl _

include hask in
/-- **Statements behind the declaration of the output give back what they wrote**, if they only add
to it and the last of them is reached. -/
theorem IsWritten.result_eq {stmts : List Stmt}
    (hleaves : ∀ s ∈ stmts, s.every Expr.leavesOutput Stmt.leavesOutput = true)
    (hgoes : stmtsGoOn false stmts = true)
    (hscope : ∀ l ∈ Link.locals place :: scope, (writtenRealm start).HasLink l)
    (hkeeps : (writtenRealm start).Keeps s.heap) (hw : IsWritten start place [] record s.heap)
    {flow : Flow}
    (h : Recording.inOrder (Recording.exec bound ⟨ask, r, calls⟩ (.locals place :: scope))
      (stmts ++ [giveOutput]) record s = .ok (flow, record') t) :
    flow.result = .text (String.join record') := by
  obtain ⟨between, u, hstmts, hlast⟩ := Recording.exists_of_inOrder_append hgoes h
  obtain ⟨hgone, -⟩ := minds_written hask [] hleaves hscope _ _ _ _ _ hkeeps hw hstmts
  obtain ⟨ending, record₁, s₁, hgive, hend⟩ := Recording.exists_of_bind_ok hlast
  match bound, hgive with
  | bound + 1, hgive =>
    obtain ⟨v, record₂, s₂, hv, hflow⟩ := Recording.exists_of_bind_ok hgive
    cases hflow
    cases hend
    obtain ⟨hvalue, heq⟩ := Recording.valueOf_of_eval hv
    obtain ⟨hfound, -⟩ := valueOf_ok rfl hvalue
    have hlink : u.heap.find? outputName (.locals place :: scope)
        = some (.text (String.join between)) := by
      rw [find?_of_holder? (hgone.holds.holder? scope), linkValue?_locals, hgone.holds.output]
      rfl
    rw [heq]
    exact Option.some.inj (hfound.symm.trans hlink)

end Behind

/-! ### The whole routine -/

section Whole

variable {start : Heap} {ask : Service → List Value → Run Value} (hask : (silent start).Serves ask)
  {bound r calls : Nat} {record : List String} {s t : Store} {stmts : List Stmt}

/-- A routine that opens the data declares its output in a frame of its own, and goes on there. -/
theorem exists_of_exec_opened {around : Surroundings} {scope : Scope} {flow : Flow}
    (h : Recording.exec bound around scope (.within (.name dataName) false
      (.declare .variable [(outputName, some (.text ""))] :: stmts)) [] s
        = .ok (flow, record) t) :
    ∃ bound' v u, Recording.eval bound' around scope (.name dataName) [] s = .ok (v, []) u
      ∧ Recording.inOrder (Recording.exec bound' around
          (.locals u.heap.frames.size :: openedLink v false :: scope)) stmts []
        { u with heap := started u.heap } = .ok (flow, record) t := by
  match bound, h with
  | bound + 3, h =>
    obtain ⟨v, between, u, hdata, hinner⟩ := Recording.exists_of_bind_ok h
    obtain ⟨-, rfl⟩ := Recording.valueOf_of_eval hdata
    exact ⟨bound + 2, v, u, hdata, hinner⟩
  | 2, h =>
    obtain ⟨v, between, u, hdata, hinner⟩ := Recording.exists_of_bind_ok h
    cases hinner

include hask in
/-- **A routine gives back the text of what it wrote**, if its statements only add to the output and
are left at the end alone; and the text begins with what it writes first. -/
theorem program_written {p : Program} (hparams : ∀ name ∈ p.params, name ≠ outputName)
    (hopens : OpensData p.body (stmts ++ [giveOutput]) [])
    (hleaves : ∀ s ∈ stmts, s.every Expr.leavesOutput Stmt.leavesOutput = true)
    (hgoes : stmtsGoOn false stmts = true) (hkeeps : (writtenRealm start).Keeps s.heap)
    (hsilent : IsSilent start [] s.heap) {args : List Value}
    (hargs : (writtenRealm start).HasAll args) {v : Value}
    (h : Recording.program p bound ⟨ask, r, calls⟩ args [] s = .ok (v, record) t) :
    v = .text (String.join record)
      ∧ ∀ text later, stmts = writeStmt (.text text) :: later → [text] <+: record := by
  obtain ⟨outer, _, s₁, houter, h⟩ := Recording.exists_of_bind_ok h
  obtain ⟨_, _, s₂, hbind, h⟩ := Recording.exists_of_bind_ok h
  obtain ⟨inner, _, s₃, hinner, h⟩ := Recording.exists_of_bind_ok h
  obtain ⟨flow, _, t', hbody, hresult⟩ := Recording.exists_of_bind_ok h
  cases hresult
  obtain ⟨hrun₁, rfl⟩ := Recording.ok_of_lift houter
  obtain ⟨hrun₂, rfl⟩ := Recording.ok_of_lift hbind
  obtain ⟨hrun₃, rfl⟩ := Recording.ok_of_lift hinner
  -- Up to the output nothing is written.
  obtain ⟨hgoes₁, hscope₁⟩ := Account.Heeds.withFrame (A := silent start) (List.forall_mem_nil _)
    _ _ _ _ hkeeps hsilent hrun₁
  obtain ⟨hgoes₂, -⟩ := Account.Heeds.bindParams (A := silent start) hparams hargs
    _ _ _ _ hgoes₁.keeps hgoes₁.holds hrun₂
  obtain ⟨hgoes₃, hscope₃⟩ := Account.Heeds.withFrame (A := silent start) hscope₁
    _ _ _ _ hgoes₂.keeps hgoes₂.holds hrun₃
  rw [OpensData] at hopens
  rw [hopens] at hbody
  obtain ⟨ending, between, u, hwithin, hend⟩ := Recording.exists_of_bind_ok hbody
  obtain ⟨bound', data, u', hdata, hstmts⟩ := exists_of_exec_opened hwithin
  have hname : (silent start).Admits r (.name dataName) := rfl
  obtain ⟨hgoes₄, hhas⟩ := (Account.everything (A := silent start) hask bound').eval r calls
    hscope₃ hname _ _ _ _ _ hgoes₃.keeps hgoes₃.holds hdata
  have hscope₄ : ∀ l ∈ Link.locals u'.heap.frames.size :: openedLink data false :: inner,
      (writtenRealm start).HasLink l :=
    List.forall_mem_cons.mpr ⟨hgoes₄.keeps.free_frames _ le_rfl,
      List.forall_mem_cons.mpr ⟨hhas.openedLink false, hscope₃⟩⟩
  have hkeeps₄ : (writtenRealm start).Keeps (started u'.heap) :=
    hgoes₄.keeps.newFrame.setLocal _ _ trivial
  have hw := hgoes₄.holds.declare
  have hend : flow = ending ∧ record = between := by
    cases ending <;> cases hend <;> exact ⟨rfl, rfl⟩
  obtain ⟨rfl, rfl⟩ := hend
  refine ⟨hw.result_eq hask hleaves hgoes hscope₄ hkeeps₄ hstmts, fun text later heq => ?_⟩
  subst heq
  refine hw.begins_of_write hask (fun stmt hmem => ?_) hscope₄ hkeeps₄ hstmts
  rcases List.mem_append.mp hmem with hmem | hmem
  · exact hleaves stmt (List.mem_cons_of_mem _ hmem)
  · cases List.mem_singleton.mp hmem
    rfl

end Whole

end Stencil.Routine
