import Stencil.Proofs.Reading.PageRun
import Stencil.Proofs.Reading.Splices

/-!
# Running a template that splices one fragment in

The routine of such a template writes the first text, asks for the fragment and writes what it gets,
and then writes the second text.  Whatever the fragment does, it cannot reach the frames of the
routine that includes it; so its text ends up between the two others.

* `Spares` — frames that there were stay as they are;
* `Concludes`, `Brings` — what a run comes to, and what it leaves alone;
* `Outputs.spared` — the output stays if its frame does;
* `concludes_stmts`, `concludes_splice` — the statements, and the whole routine.
-/

namespace Stencil.Reading

open Routine Template

/-- The frames that there were stay as they are. -/
structure Spares (h h' : Heap) : Prop where
  /-- No frame is lost. -/
  size : h.frames.size ≤ h'.frames.size
  /-- Each has the variables that it had. -/
  frame : ∀ place < h.frames.size, h'.frame place = h.frame place

/-- The run gives the result, or halts in this way. -/
def Concludes {α : Type} (run : Run α) (store : Store) : Except Halt α → Prop
  | .ok a => ∃ after, run store = .ok a after
  | .error halt => ∃ after, run store = .error halt after

theorem Concludes.congr {α : Type} {run run' : Run α} {store store' : Store} {r : Except Halt α}
    (hrun : run store = run' store') (h : Concludes run' store' r) : Concludes run store r := by
  cases r with
  | error halt =>
    obtain ⟨after, hfail⟩ := h
    exact ⟨after, hrun.trans hfail⟩
  | ok a =>
    obtain ⟨after, hok⟩ := h
    exact ⟨after, hrun.trans hok⟩

/-- The run gives the text and spares the frames, or halts in this way. -/
def Brings (run : Run String) (store : Store) : Except Halt String → Prop
  | .ok text => ∃ after, run store = .ok text after ∧ Spares store.heap after.heap
  | .error halt => ∃ after, run store = .error halt after

/-- The two heaps differ in their frames only. -/
def SameButFrames (h h' : Heap) : Prop := h' = { h with frames := h'.frames }

theorem sameButFrames_of_eq {h h' : Heap} (harrays : h'.arrays = h.arrays)
    (hobjects : h'.objects = h.objects) (hidentities : h'.identities = h.identities) :
    SameButFrames h h' := by
  obtain ⟨arrays, objects, frames, identities⟩ := h'
  dsimp only at harrays hobjects hidentities
  rw [SameButFrames, harrays, hobjects, hidentities]

theorem SameButFrames.trans {h h' h'' : Heap} (a : SameButFrames h h') (b : SameButFrames h' h'') :
    SameButFrames h h'' := by
  rw [SameButFrames] at a b ⊢
  rw [b, a]

theorem sameButFrames_newFrame (h : Heap) : SameButFrames h h.newFrame.2 := rfl

theorem sameButFrames_setLocal (h : Heap) (place : Nat) (name : String) (b : Binding) :
    SameButFrames h (h.setLocal place name b) := rfl

theorem sameButFrames_declareAll (h : Heap) (place : Nat) (names : List String)
    (vs : List Value) : SameButFrames h (h.declareAll [.locals place] names vs) := by
  induction names generalizing h vs with
  | nil => rfl
  | cons name names ih =>
    have step (b : Binding) (vs : List Value) :
        SameButFrames h ((h.setLocal place name b).declareAll [.locals place] names vs) :=
      (sameButFrames_setLocal h place name b).trans (ih (h.setLocal place name b) vs)
    cases vs with
    | nil => exact step _ []
    | cons v vs => exact step _ vs

/-- The output stays in a frame that is spared. -/
theorem Outputs.spared {h h' : Heap} {scope : Scope} {o : Nat} {out : String}
    (hs : Outputs h (.locals o :: scope) o out) (sp : Spares h h') :
    Outputs h' (.locals o :: scope) o out := by
  have houtput : (h'.frame o).get? outputName = some ⟨.text out, true⟩ := by
    rw [sp.frame o hs.output_inside]
    exact hs.output
  have hholds : h'.holds outputName (.locals o) = true := by
    show ((h'.frame o).get? outputName).isSome = true
    rw [houtput]
    rfl
  exact ⟨holder?_cons_of_true _ hholds, houtput,
    fun place hplace => Nat.lt_of_lt_of_le (hs.inside place hplace) sp.size⟩

section Running

variable {s : Setting} {fragment : String → Run String} {around : Surroundings} {scope : Scope}
  {o : Nat} {out : String} {store : Store} {r : Except Halt String}

/-- The row of a text adds the text. -/
theorem inOrder_textRow (around : Surroundings) (hs : Outputs store.heap scope o out)
    (cs : List Char) (bound : Nat) :
    ∃ heap, inOrder (exec (bound + 4) around scope) ((textRow cs).map Row.stmt) store
        = .ok .onward { store with heap := heap }
      ∧ Writes o store.heap heap (out ++ String.ofList cs)
      ∧ heap.identities = store.heap.identities := by
  rw [textRow]
  split
  · rename_i hempty
    rw [List.isEmpty_iff.mp hempty]
    refine ⟨store.heap, rfl, ?_, rfl⟩
    show Writes o store.heap store.heap (out ++ "")
    rw [String.append_empty]
    exact .refl hs
  · have heval : eval (bound + 2) around scope (.text (String.ofList cs)) store
        = .ok (.text (String.ofList cs)) store := by
      rw [eval]
      rfl
    have hexec := exec_write_after hs (Nat.le_add_left 1 (bound + 1)) heval hs
      (display_text store.heap _)
    exact ⟨_, (run_bind_ok hexec).trans rfl, hs.writes_setLocal _, rfl⟩

/-- **The text of the fragment goes between the two texts.** -/
theorem concludes_stmts (t : Splice) (hperform : around.perform = s.perform fragment)
    (hcalls : around.calls ≠ 0) (hs : Outputs store.heap (.locals o :: scope) o "")
    {identity : Nat}
    (hfind : store.heap.find? fragmentFunction (.locals o :: scope)
      = some (.native fragmentFunction (.service .fragment) identity))
    (h : ∀ heap, SameButFrames store.heap heap →
      Brings (fragment t.name.text) { store with heap := heap } r) (bound : Nat) :
    Concludes (inOrder (exec (bound + 4) around (.locals o :: scope))
        (t.stmts ++ [.giveBack (some (.name outputName))]))
      store (r.map fun text => .giveBack (.text (t.around text))) := by
  obtain ⟨heap, hfront, hwrites, hidentities⟩ := inOrder_textRow around hs t.before.chars bound
  rw [String.empty_append] at hwrites
  have hs' := hs.writes hwrites
  have hfind' : Heap.find? { store with heap := heap }.heap fragmentFunction (.locals o :: scope)
      = some (.native fragmentFunction (.service .fragment) identity) :=
    (hs.find?_writes hwrites (by decide)).trans hfind
  have heval : eval (bound + 2) around (.locals o :: scope)
      (.call (.name fragmentFunction) [.text t.name.text] false) { store with heap := heap } = _ :=
    eval_serviceCall hfind' hcalls t.name.text bound
  rw [hperform, perform_fragment] at heval
  have hbrings := h heap (sameButFrames_of_eq hwrites.arrays hwrites.objects hidentities)
  rw [Splice.stmts, List.append_assoc, inOrder_append]
  cases r with
  | error halt =>
    obtain ⟨after, hfail⟩ := hbrings
    have hstmt := exec_write_error hs' (Nat.le_add_left 1 (bound + 1))
      (heval.trans (run_bind_error hfail))
    exact ⟨after, (run_bind_ok hfront).trans (run_bind_error hstmt)⟩
  | ok text =>
    obtain ⟨after, hok, hspares⟩ := hbrings
    have hs'' := hs'.spared hspares
    have hstmt := exec_write_after hs' (Nat.le_add_left 1 (bound + 1))
      (heval.trans ((run_bind_ok hok).trans rfl)) hs'' (display_text after.heap text)
    have hwritten := hs''.writes (hs''.writes_setLocal (String.ofList t.before.chars ++ text))
    generalize hlast : after.heap.setLocal o outputName
      ⟨.text (String.ofList t.before.chars ++ text), true⟩ = heap' at hstmt hwritten
    have hs' : Outputs { after with heap := heap' }.heap (.locals o :: scope) o _ := hwritten
    obtain ⟨last, hback, hwrites', -⟩ := inOrder_textRow around hs' t.after bound
    have hgive := exec_giveBack around { after with heap := last } (hwritten.writes hwrites')
      (bound + 2)
    refine ⟨{ after with heap := last }, (run_bind_ok hfront).trans ?_⟩
    rw [List.cons_append]
    refine (run_bind_ok hstmt).trans ?_
    show inOrder _ ((textRow t.after).map Row.stmt ++ _) _ = _
    rw [inOrder_append]
    refine (run_bind_ok hback).trans ?_
    show inOrder _ [Stmt.giveBack (some (.name outputName))] _ = _
    rw [inOrder]
    exact (run_bind_ok hgive).trans rfl

/-- The body of the routine gives back the text of the fragment between the two texts, if the data
do not hide the function that includes. -/
theorem concludes_body (t : Splice) (hperform : around.perform = s.perform fragment)
    (hcalls : around.calls ≠ 0) {place object inner identity : Nat}
    (hg : Given store.heap place (.object object))
    (hfunction : (store.heap.frame place).get? fragmentFunction
      = some ⟨.native fragmentFunction (.service .fragment) identity, true⟩)
    (hkey : (store.heap.members object).get? fragmentFunction = none)
    (hinner : inner < store.heap.frames.size) (hempty : store.heap.frame inner = .empty)
    (h : ∀ heap, SameButFrames store.heap heap →
      Brings (fragment t.name.text) { store with heap := heap } r) (bound : Nat) :
    Concludes ((inOrder (exec (bound + 5) around [.locals inner, .locals place]) t.body >>=
      fun flow => pure flow.result) >>= Run.textOf) store (r.map t.around) := by
  have hwithin := exec_within around store hg.data hempty (bound + 2)
    (t.stmts ++ [.giveBack (some (.name outputName))])
  have houtputs : Outputs { store with heap := started store.heap }.heap
      (startScope store.heap (.object object) inner place) store.heap.frames.size "" :=
    outputs_started hg.inside hinner
  have hfind : { store with heap := started store.heap }.heap.find? fragmentFunction
      (startScope store.heap (.object object) inner place)
      = some (.native fragmentFunction (.service .fragment) identity) := by
    show (started store.heap).find? _ _ = _
    rw [find?_started hg.inside hinner hempty (by decide), hkey, hfunction]
    rfl
  have hstmts := concludes_stmts t hperform hcalls houtputs hfind h bound
  cases r with
  | error halt =>
    obtain ⟨after, hfail⟩ := hstmts
    have hbody : inOrder (exec (bound + 5) around [.locals inner, .locals place]) t.body store
        = .error halt after := by
      rw [Splice.body, inOrder]
      exact run_bind_error (hwithin.trans hfail)
    exact ⟨after, run_bind_error (run_bind_error hbody)⟩
  | ok text =>
    obtain ⟨after, hok⟩ := hstmts
    have hbody : inOrder (exec (bound + 5) around [.locals inner, .locals place]) t.body store
        = .ok (.giveBack (.text (t.around text))) after := by
      rw [Splice.body, inOrder]
      exact (run_bind_ok (hwithin.trans hok)).trans rfl
    have hresult : (inOrder (exec (bound + 5) around [.locals inner, .locals place]) t.body >>=
        fun flow => pure flow.result) store = .ok (.text (t.around text)) after :=
      (run_bind_ok hbody).trans rfl
    exact ⟨after, (run_bind_ok hresult).trans (textOf_text _ after)⟩

/-- The routine of the template comes to the text of the fragment between its texts. -/
theorem concludes_splice (t : Splice) {byName byValue : Nat}
    (hhooks : s.hooks = inclusionHooks byName byValue) {routine : Compiled}
    (hroutine : routine.program = ⟨pageParams, t.body⟩) {object : Nat}
    (hkey : (store.heap.members object).get? fragmentFunction = none)
    (h : ∀ heap, SameButFrames store.heap heap →
      Brings (fragment t.name.text) { store with heap := heap } r) (bound : Nat) :
    Concludes (s.invoke (bound + 5) fragment routine (.object object)) store
      (r.map t.around) := by
  have hgiven := given_boundPage store.heap (.object object) s.escape byName byValue
  have hfunction : ((boundPage store.heap (.object object) s.escape byName byValue).frame
      store.heap.frames.size).get? fragmentFunction
        = some ⟨.native fragmentFunction (.service .fragment) byName, true⟩ := by
    have hplace : store.heap.frames.size < store.heap.newFrame.2.frames.size := by
      rw [Heap.size_newFrame]
      omega
    have hnodup : pageParams.Nodup := by decide
    exact Heap.get?_declareAll _ hplace hnodup (.tail _ (.tail _ (.head _)))
  have hsame : SameButFrames store.heap
      (boundPage store.heap (.object object) s.escape byName byValue) :=
    (sameButFrames_newFrame store.heap).trans (sameButFrames_declareAll _ _ _ _)
  generalize hheap : boundPage store.heap (.object object) s.escape byName byValue = heap
    at hgiven hfunction hsame
  have hsame : SameButFrames store.heap heap.newFrame.2 :=
    hsame.trans (sameButFrames_newFrame heap)
  have hinner : heap.frames.size < heap.newFrame.2.frames.size := by
    rw [Heap.size_newFrame]
    omega
  have hempty : heap.newFrame.2.frame heap.frames.size = .empty := by
    rw [Heap.frame_newFrame, if_pos rfl]
  have hframe : heap.newFrame.2.frame store.heap.frames.size
      = heap.frame store.heap.frames.size := by
    rw [Heap.frame_newFrame, if_neg (Nat.ne_of_lt hgiven.inside)]
  have hmembers : heap.newFrame.2.members object = store.heap.members object := by
    rw [hsame]
    rfl
  have hcalls : callLimit ≠ 0 := by decide
  have hinvoke := invoke_page hhooks hroutine fragment (.object object) store (bound + 5) hheap.symm
  refine .congr hinvoke ?_
  rw [← hframe] at hfunction
  rw [← hmembers] at hkey
  have hgiven' := hgiven.newFrame
  have hlater (later : Heap) (hlater : SameButFrames heap.newFrame.2 later) :
      Brings (fragment t.name.text) { store with heap := later } r :=
    h later (hsame.trans hlater)
  generalize heap.newFrame.2 = begun at hfunction hkey hgiven' hinner hempty hlater
  exact concludes_body t rfl hcalls hgiven' hfunction hkey hinner hempty hlater bound

end Running

end Stencil.Reading
