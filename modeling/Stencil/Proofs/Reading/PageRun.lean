import Stencil.Proofs.Reading.PageProgram
import Stencil.Proofs.Reading.Render

/-!
# Running the program of a page

The rows of a page add to the output what the rows read, given what the included fragments come to.
Rendering a fragment adds frames to the heap, and neither arrays nor objects.

* `readRows`, `Page.read` — what a page reads, given what fragments come to;
* `Grows` — what rendering a fragment does to a heap;
* `Yields` — a run comes to a text or to a failure that nothing hides;
* `invoke_constants` — how a routine begins if its parameters are given constants;
* `yields_invoke` — the routine of a page comes to what the page reads.
-/

namespace Stencil.Reading

open Routine Template

/-! ### What a page reads -/

/-- What a row reads, given what fragments come to. -/
def Row.read (texts : String → Except Failure String) : Row → Except Failure String
  | .text cs => .ok (String.ofList cs)
  | .call i => texts i.name.name

/-- What rows read, one behind the other. -/
def readRows (texts : String → Except Failure String) : List Row → Except Failure String
  | [] => .ok ""
  | row :: rows => do return (← row.read texts) ++ (← readRows texts rows)

/-- What a page reads. -/
def Page.read (texts : String → Except Failure String) (p : Page) : Except Failure String :=
  readRows texts p.rows

/-! ### Heaps that grow -/

/-- What rendering does to a heap: it adds frames. -/
structure Grows (h h' : Heap) : Prop where
  /-- Arrays stay. -/
  arrays : h'.arrays = h.arrays
  /-- Objects stay. -/
  objects : h'.objects = h.objects
  /-- No frame is lost. -/
  size : h.frames.size ≤ h'.frames.size
  /-- The frames that there were keep their variables. -/
  frames : ∀ place < h.frames.size, ∀ name,
    (h'.frame place).get? name = (h.frame place).get? name

section

variable {h h' h'' : Heap} {scope : Scope} {o : Nat} {out : String}

theorem Grows.refl (h : Heap) : Grows h h := ⟨rfl, rfl, Nat.le_refl _, fun _ _ _ => rfl⟩

theorem Grows.trans (a : Grows h h') (b : Grows h' h'') : Grows h h'' where
  arrays := b.arrays.trans a.arrays
  objects := b.objects.trans a.objects
  size := Nat.le_trans a.size b.size
  frames place hp name :=
    (b.frames place (Nat.lt_of_lt_of_le hp a.size) name).trans (a.frames place hp name)

/-- Growth leaves the output as it is. -/
theorem Grows.writes (g : Grows h h') (hs : Outputs h scope o out) : Writes o h h' out where
  arrays := g.arrays
  objects := g.objects
  size := g.size
  frames place hp name _ := g.frames place hp name
  output := (g.frames o hs.output_inside outputName).trans hs.output

theorem grows_newFrame (h : Heap) : Grows h h.newFrame.2 where
  arrays := rfl
  objects := rfl
  size := by
    rw [Heap.size_newFrame]
    omega
  frames place hp name := by
    rw [Heap.frame_newFrame, if_neg (Nat.ne_of_lt hp)]

/-- Frames that were not there can be changed. -/
theorem Grows.setLocal (g : Grows h h') {place : Nat} (hnew : h.frames.size ≤ place)
    (hplace : place < h'.frames.size) (name : String) (b : Binding) :
    Grows h (h'.setLocal place name b) where
  arrays := g.arrays
  objects := g.objects
  size := by
    rw [Heap.size_setLocal]
    exact g.size
  frames other hp key := by
    rw [Heap.frame_setLocal _ _ _ _ hplace, if_neg (by omega)]
    exact g.frames other hp key

theorem grows_started (h : Heap) : Grows h (started h) := by
  refine (grows_newFrame h).setLocal (Nat.le_refl _) ?_ outputName _
  rw [Heap.size_newFrame]
  omega

/-- Binding parameters in a frame that was not there. -/
theorem Grows.declareAll (g : Grows h h') {place : Nat} (hnew : h.frames.size ≤ place)
    (hplace : place < h'.frames.size) (names : List String) (vs : List Value) :
    Grows h (h'.declareAll [.locals place] names vs)
      ∧ place < (h'.declareAll [.locals place] names vs).frames.size := by
  induction names generalizing h' vs with
  | nil => exact ⟨g, hplace⟩
  | cons name names ih =>
    have step (b : Binding) (vs : List Value) := ih (g.setLocal hnew hplace name b)
      (by rw [Heap.size_setLocal]; exact hplace) vs
    cases vs with
    | nil => exact step _ []
    | cons v vs => exact step _ vs

/-- Writing to an output that was not there. -/
theorem Writes.grows (w : Writes o h' h'' out) (g : Grows h h') (hnew : h.frames.size ≤ o) :
    Grows h h'' where
  arrays := w.arrays.trans g.arrays
  objects := w.objects.trans g.objects
  size := Nat.le_trans g.size w.size
  frames place hp name := by
    have hne : place ≠ o := by omega
    exact (w.frames place (Nat.lt_of_lt_of_le hp g.size) name (.inl hne)).trans
      (g.frames place hp name)

end

/-! ### What runs come to -/

/-- Arrays and objects are the same, whatever became of frames. -/
def SameShared (h h' : Heap) : Prop := h'.arrays = h.arrays ∧ h'.objects = h.objects

theorem Grows.sameShared {h h' : Heap} (g : Grows h h') : SameShared h h' := ⟨g.arrays, g.objects⟩

theorem SameShared.trans {h h' h'' : Heap} (a : SameShared h h') (b : SameShared h' h'') :
    SameShared h h'' :=
  ⟨b.1.trans a.1, b.2.trans a.2⟩

/-- The condition on stores depends, as far as the heap goes, on the objects alone. -/
def OfObjects (R : Store → Prop) : Prop :=
  ∀ store heap, R store → heap.objects = store.heap.objects → R { store with heap := heap }

/-- The run gives the text and adds frames, or fails with the failure, which nothing hides, and
arrays and objects stay. -/
def ComesTo (R : Store → Prop) (run : Run String) (store : Store) : Except Failure String → Prop
  | .ok text => ∃ after, run store = .ok text after ∧ Grows store.heap after.heap ∧ R after
  | .error f => f.isProtocol = true ∧ ∃ after, run store = .error (.failed f) after
    ∧ SameShared store.heap after.heap

/-- On every store with the condition the run comes to the result. -/
def Yields (R : Store → Prop) (run : Run String) (r : Except Failure String) : Prop :=
  ∀ store, R store → ComesTo R run store r

/-- What a run comes to that goes on with another one on a heap that has grown. -/
theorem ComesTo.of_grows {R : Store → Prop} {run run' : Run String} {store store' : Store}
    {r : Except Failure String} (hrun : run store = run' store')
    (g : Grows store.heap store'.heap) (h : ComesTo R run' store' r) : ComesTo R run store r := by
  cases r with
  | ok text =>
    obtain ⟨after, hok, hgrows, hafter⟩ := h
    exact ⟨after, hrun.trans hok, g.trans hgrows, hafter⟩
  | error f =>
    obtain ⟨hprotocol, after, hfail, hsame⟩ := h
    exact ⟨hprotocol, after, hrun.trans hfail, g.sameShared.trans hsame⟩

/-- The run adds the text to the output, or fails with a failure that nothing hides. -/
def Prints (R : Store → Prop) (o : Nat) (run : Run Flow) (store : Store) (out : String) :
    Except Failure String → Prop
  | .ok text => ∃ after, run store = .ok .onward after
    ∧ Writes o store.heap after.heap (out ++ text) ∧ R after
  | .error f => f.isProtocol = true ∧ ∃ after, run store = .error (.failed f) after
    ∧ SameShared store.heap after.heap

/-! ### Calls -/

/-- What is asked for by an inclusion. -/
def Inclusion.service (i : Inclusion) : Service :=
  match i.target with
  | .named _ _ _ _ => .fragment
  | .chosen _ => .chosenFragment

/-- The scope has the output, and the functions that include fragments can be named. -/
structure Offers (h : Heap) (scope : Scope) (o : Nat) (out : String) : Prop
    extends Outputs h scope o out where
  /-- The functions are those of the engine. -/
  function : ∀ i : Inclusion, ∃ identity,
    h.find? i.function scope = some (.native i.function (.service i.service) identity)

theorem Inclusion.function_ne_output (i : Inclusion) : i.function ≠ outputName := by
  rw [function]
  split <;> decide

/-- Whatever is written, the functions can be named. -/
theorem Offers.writes {h h' : Heap} {scope : Scope} {o : Nat} {out out' : String}
    (hs : Offers h scope o out) (w : Writes o h h' out') : Offers h' scope o out' where
  toOutputs := hs.toOutputs.writes w
  function i := by
    rw [hs.find?_writes w i.function_ne_output]
    exact hs.function i

section Running

variable {s : Setting} {fragment : String → Run String} {around : Surroundings} {scope : Scope}
  {o : Nat} {out : String} {store : Store} {R : Store → Prop}
  {texts : String → Except Failure String}

theorem Inclusion.service_cases (i : Inclusion) :
    i.service = .fragment ∨ i.service = .chosenFragment := by
  rw [service]
  split
  · exact .inl rfl
  · exact .inr rfl

theorem textOf_text (text : String) (store : Store) :
    Run.textOf (.text text) store = .ok text store := by
  show Run.finite (store.heap.display (.text text)) store = _
  rw [display_text]
  rfl

theorem firstText_text (name : String) (store : Store) :
    Setting.firstText [.text name] store = .ok name store :=
  textOf_text name store

/-- A fragment is asked for by its name. -/
theorem perform_fragment (name : String) (store : Store) :
    s.perform fragment .fragment [.text name] store
      = (fragment name >>= fun text => pure (.text text)) store :=
  run_bind_ok (firstText_text name store)

/-- What is asked for by an inclusion is the text of the fragment. -/
theorem perform_inclusion_ok (i : Inclusion) {text : String} {after : Store}
    (h : fragment i.name.name store = .ok text after) :
    s.perform fragment i.service [.text i.name.name] store = .ok (.text text) after := by
  rcases i.service_cases with heq | heq <;> rw [heq]
  · exact (perform_fragment _ store).trans ((run_bind_ok h).trans rfl)
  · exact (run_bind_ok (run_tryCatch_ok h)).trans rfl

/-- A failure that nothing hides comes out of an inclusion. -/
theorem perform_inclusion_error (i : Inclusion) {f : Failure} (hf : f.isProtocol = true)
    {after : Store} (h : fragment i.name.name store = .error (.failed f) after) :
    s.perform fragment i.service [.text i.name.name] store = .error (.failed f) after := by
  rcases i.service_cases with heq | heq <;> rw [heq]
  · exact (perform_fragment _ store).trans (run_bind_error h)
  · refine run_bind_error ((run_tryCatch_error h).trans ?_)
    show (if f.isProtocol = true then _ else _ : Run String) after = _
    rw [if_pos hf]
    rfl

/-- The call of a function of the engine asks the engine once its argument is evaluated. -/
theorem eval_serviceCall_eq {name function : String} {service : Service} {identity : Nat}
    (hfind : store.heap.find? name scope = some (.native function (.service service) identity))
    (hcalls : around.calls ≠ 0) (e : Expr) (bound : Nat) :
    eval (bound + 2) around scope (.call (.name name) [e] false) store
      = (eval (bound + 1) around scope e >>= fun v => around.perform service [v]) store := by
  have hcallee : eval (bound + 1) around scope (.name name) store
      = .ok (.native function (.service service) identity) store := by
    rw [eval]
    exact valueOf_found hfind
  obtain ⟨calls, hcalls⟩ : ∃ n, around.calls = n + 1 := ⟨around.calls - 1, by omega⟩
  have hcall (vs : List Value) :
      callValue (bound + 1) around (.native function (.service service) identity) vs
        = around.perform service vs := by
    rw [callValue, hcalls]
  rw [eval_callName, run_bind_ok hcallee, List.mapM_cons, List.mapM_nil, bind_assoc]
  simp only [pure_bind, hcall]

/-- The call of a function of the engine with a text asks the engine. -/
theorem eval_serviceCall {name function : String} {service : Service} {identity : Nat}
    (hfind : store.heap.find? name scope = some (.native function (.service service) identity))
    (hcalls : around.calls ≠ 0) (text : String) (bound : Nat) :
    eval (bound + 2) around scope (.call (.name name) [.text text] false) store
      = around.perform service [.text text] store := by
  have htext : eval (bound + 1) around scope (.text text) store = .ok (.text text) store := by
    rw [eval]
    rfl
  exact (eval_serviceCall_eq hfind hcalls _ bound).trans (run_bind_ok htext)

/-- The call of an inclusion asks for the fragment. -/
theorem eval_inclusion (i : Inclusion) (hs : Offers store.heap scope o out)
    (hcalls : around.calls ≠ 0) (bound : Nat) :
    eval (bound + 2) around scope (.call (.name i.function) [.text i.name.name] false) store
      = around.perform i.service [.text i.name.name] store := by
  obtain ⟨identity, hfind⟩ := hs.function i
  exact eval_serviceCall hfind hcalls i.name.name bound

/-! ### Rows -/

/-- The statement of a row adds what the row reads. -/
theorem Row.prints (row : Row) (hperform : around.perform = s.perform fragment)
    (hcalls : around.calls ≠ 0) (hchange : OfObjects R) (hs : Offers store.heap scope o out)
    (hR : R store)
    (h : ∀ i, row = .call i → Yields R (fragment i.name.name) (texts i.name.name)) (bound : Nat) :
    Prints R o (exec (bound + 4) around scope row.stmt) store out (row.read texts) := by
  cases row with
  | text cs =>
    have heval : eval (bound + 2) around scope (.text (String.ofList cs)) store
        = .ok (.text (String.ofList cs)) store := by
      rw [eval]
      rfl
    obtain ⟨heap, hexec, hwrites⟩ := exec_write hs.toOutputs (by omega) heval (.refl hs.toOutputs)
      (display_text store.heap _)
    exact ⟨_, hexec, hwrites, hchange store heap hR hwrites.objects⟩
  | call i =>
    have hcomes := h i rfl store hR
    have heval := eval_inclusion i hs hcalls bound
    rw [hperform] at heval
    rw [Row.read]
    generalize texts i.name.name = r at hcomes
    cases r with
    | ok text =>
      obtain ⟨after, hok, hgrows, hafter⟩ := hcomes
      obtain ⟨heap, hexec, hwrites⟩ := exec_write hs.toOutputs (by omega)
        (heval.trans (perform_inclusion_ok i hok)) (hgrows.writes hs.toOutputs)
        (display_text after.heap text)
      refine ⟨_, hexec, hwrites, hchange after heap hafter ?_⟩
      rw [hwrites.objects, hgrows.objects]
    | error f =>
      obtain ⟨hprotocol, after, hfail, hsame⟩ := hcomes
      exact ⟨hprotocol, after, exec_write_error hs.toOutputs (by omega)
        (heval.trans (perform_inclusion_error i hprotocol hfail)), hsame⟩

/-- The statements of rows add what the rows read. -/
theorem rows_print (rows : List Row) (store : Store)
    (hperform : around.perform = s.perform fragment) (hcalls : around.calls ≠ 0)
    (hchange : OfObjects R) (hs : Offers store.heap scope o out) (hR : R store)
    (h : ∀ i, .call i ∈ rows → Yields R (fragment i.name.name) (texts i.name.name)) (bound : Nat) :
    Prints R o (inOrder (exec (bound + 4) around scope) (rows.map Row.stmt)) store out
      (readRows texts rows) := by
  induction rows generalizing store out with
  | nil =>
    refine ⟨store, rfl, ?_, hR⟩
    rw [String.append_empty]
    exact .refl hs.toOutputs
  | cons row rows ih =>
    have hrow := row.prints hperform hcalls hchange hs hR
      (fun i hi => h i (hi ▸ List.mem_cons_self)) bound
    rw [List.map_cons, inOrder, readRows]
    generalize row.read texts = r at hrow
    cases r with
    | error f =>
      obtain ⟨hprotocol, after, hfail, hsame⟩ := hrow
      exact ⟨hprotocol, after, run_bind_error hfail, hsame⟩
    | ok text =>
      obtain ⟨after, hok, hwrites, hafter⟩ := hrow
      have hrows := ih after (hs.writes hwrites) hafter fun i hi =>
        h i (List.mem_cons_of_mem row hi)
      generalize readRows texts rows = r at hrows
      cases r with
      | error f =>
        obtain ⟨hprotocol, last, hfail, hsame⟩ := hrows
        exact ⟨hprotocol, last, (run_bind_ok hok).trans hfail,
          SameShared.trans ⟨hwrites.arrays, hwrites.objects⟩ hsame⟩
      | ok more =>
        obtain ⟨last, hmore, hwrites', hlast⟩ := hrows
        refine ⟨last, (run_bind_ok hok).trans hmore, ?_, hlast⟩
        rw [← String.append_assoc]
        exact hwrites.trans hwrites'

end Running

/-! ### Parameters -/

/-- The heap in which parameters are bound to arguments, in a new frame. -/
def boundTo (h : Heap) (params : List String) (args : List Value) : Heap :=
  h.newFrame.2.declareAll [.locals h.frames.size] params args

section Parameters

variable {h : Heap} {params : List String} {args : List Value}

theorem grows_boundTo (h : Heap) (params : List String) (args : List Value) :
    Grows h (boundTo h params args) ∧ h.frames.size < (boundTo h params args).frames.size := by
  have hplace : h.frames.size < h.newFrame.2.frames.size := by
    rw [Heap.size_newFrame]
    omega
  exact (grows_newFrame h).declareAll (Nat.le_refl _) hplace params args

/-- Each parameter is bound to its argument. -/
theorem get?_boundTo (hparams : params.Nodup) {name : String} {v : Value}
    (hmem : (name, v) ∈ params.zip args) :
    ((boundTo h params args).frame h.frames.size).get? name = some ⟨v, true⟩ := by
  have hplace : h.frames.size < h.newFrame.2.frames.size := by
    rw [Heap.size_newFrame]
    omega
  exact Heap.get?_declareAll h.newFrame.2 hplace hparams hmem

end Parameters

/-- Constants are given as they are. -/
theorem givenAll_of_constants {s : Setting} {vs : List Value}
    (hproviders : s.hooks.providers = vs.map Provider.constant) (store : Store) :
    s.givenAll store s.hooks.providers = (vs, store) := by
  have hconstants : ∀ p ∈ s.hooks.providers, ∃ v, p = .constant v := by
    rw [hproviders]
    exact List.forall_mem_map.mpr fun v _ => ⟨v, rfl⟩
  rw [Setting.givenAll_constants s store hconstants .undefined, hproviders, List.map_map]
  exact congrArg (Prod.mk · store) (List.map_id vs)

/-- A routine that is given constants binds its parameters and runs its body in a frame of its
own. -/
theorem invoke_constants {s : Setting} {vs : List Value}
    (hproviders : s.hooks.providers = vs.map Provider.constant) {routine : Compiled}
    {params : List String} {body : List Stmt} (hroutine : routine.program = ⟨params, body⟩)
    (hlength : params.length = 2 + vs.length) (fragment : String → Run String) (data : Value)
    (store : Store) (bound : Nat) :
    s.invoke bound fragment routine data store
      = ((inOrder (exec bound ⟨s.perform fragment, routine.number, callLimit⟩
            [.locals (boundTo store.heap params (data :: s.escape :: vs)).frames.size,
              .locals store.heap.frames.size]) body >>=
          fun flow => pure flow.result) >>= Run.textOf)
        { store with heap := (boundTo store.heap params (data :: s.escape :: vs)).newFrame.2 } := by
  have harity : routine.arity = 2 + vs.length := by
    show routine.program.params.length = _
    rw [hroutine]
    exact hlength
  rw [Setting.invoke_eq, harity, hproviders, List.length_map, ← hproviders,
    givenAll_of_constants hproviders, if_neg (fun hne => hne rfl)]
  refine run_bind_congr ?_
  rw [Program.run_eq, hroutine]
  rfl

/-! ### The whole routine -/

/-- The hooks of an engine that includes fragments, given the numbers of the two functions. -/
def inclusionHooks (byName byValue : Nat) : Hooks where
  preprocessors := { hooks := [.inclusions] }
  params := [fragmentFunction, chosenFragmentFunction]
  providers := [.constant (.native fragmentFunction (.service .fragment) byName),
    .constant (.native chosenFragmentFunction (.service .chosenFragment) byValue)]
  version := 2

/-- The functions that include are given as they are. -/
theorem providers_of_inclusions {s : Setting} {byName byValue : Nat}
    (hhooks : s.hooks = inclusionHooks byName byValue) :
    s.hooks.providers = [Value.native fragmentFunction (.service .fragment) byName,
      .native chosenFragmentFunction (.service .chosenFragment) byValue].map Provider.constant := by
  rw [hhooks]
  rfl

/-- The parameters of a routine that includes fragments. -/
def pageParams : List String :=
  [dataName, escapeName, fragmentFunction, chosenFragmentFunction]

/-- What the frame of the parameters has: the data and the functions that include fragments. -/
structure Given (h : Heap) (place : Nat) (data : Value) : Prop where
  /-- The frame is there. -/
  inside : place < h.frames.size
  /-- The data has its name. -/
  data : (h.frame place).get? dataName = some ⟨data, true⟩
  /-- The functions have their names. -/
  function : ∀ i : Inclusion, ∃ identity, (h.frame place).get? i.function
    = some ⟨.native i.function (.service i.service) identity, true⟩

theorem Given.newFrame {h : Heap} {place : Nat} {data : Value} (hg : Given h place data) :
    Given h.newFrame.2 place data := by
  have hframe : h.newFrame.2.frame place = h.frame place := by
    rw [Heap.frame_newFrame, if_neg (Nat.ne_of_lt hg.inside)]
  refine ⟨Nat.lt_of_lt_of_le hg.inside (grows_newFrame h).size, ?_, ?_⟩
  · rw [hframe]
    exact hg.data
  · rw [hframe]
    exact hg.function

/-- Behind the start of the output, fragments can be included if the data have no members. -/
theorem offers_started {h : Heap} {place object inner : Nat} (hg : Given h place (.object object))
    (hobject : h.members object = .empty) (hinner : inner < h.frames.size)
    (hempty : h.frame inner = .empty) :
    Offers (started h) (startScope h (.object object) inner place) h.frames.size "" where
  toOutputs := outputs_started hg.inside hinner
  function i := by
    obtain ⟨identity, hfunction⟩ := hg.function i
    refine ⟨identity, ?_⟩
    rw [find?_started hg.inside hinner hempty i.function_ne_output, hobject, hfunction]
    rfl

section Invoking

variable {s : Setting} {fragment : String → Run String} {around : Surroundings} {store : Store}
  {R : Store → Prop} {texts : String → Except Failure String} {place object : Nat}

/-- The body of the routine of a page gives back what the page reads. -/
theorem exec_pageBody (rows : List Row) (hperform : around.perform = s.perform fragment)
    (hcalls : around.calls ≠ 0) (hchange : OfObjects R)
    (h : ∀ i, .call i ∈ rows → Yields R (fragment i.name.name) (texts i.name.name))
    (hg : Given store.heap place (.object object)) (hobject : store.heap.members object = .empty)
    {inner : Nat} (hinner : inner < store.heap.frames.size)
    (hempty : store.heap.frame inner = .empty) (hR : R store) (bound : Nat) :
    ComesTo R
      ((inOrder (exec (bound + 5) around [.locals inner, .locals place]) (pageBody rows) >>=
        fun flow => pure flow.result) >>= Run.textOf) store (readRows texts rows) := by
  have hwithin := exec_within around store hg.data hempty (bound + 2)
    (rows.map Row.stmt ++ [.giveBack (some (.name outputName))])
  have hoffers := offers_started hg hobject hinner hempty
  have hrows := rows_print rows { store with heap := started store.heap } hperform hcalls hchange
    hoffers (hchange store _ hR (grows_started _).objects) h bound
  rw [inOrder_append] at hwithin
  generalize readRows texts rows = r at hrows
  cases r with
  | error f =>
    obtain ⟨hprotocol, after, hfail, hsame⟩ := hrows
    have hbody : inOrder (exec (bound + 5) around [.locals inner, .locals place]) (pageBody rows)
        store = .error (.failed f) after := by
      rw [pageBody, inOrder]
      exact run_bind_error (hwithin.trans (run_bind_error hfail))
    exact ⟨hprotocol, after, run_bind_error (run_bind_error hbody),
      (grows_started _).sameShared.trans hsame⟩
  | ok text =>
    obtain ⟨after, hok, hwrites, hafter⟩ := hrows
    rw [String.empty_append] at hwrites
    have hgive := exec_giveBack around after (hoffers.writes hwrites).toOutputs (bound + 2)
    have hflow : inOrder (exec (bound + 4) around
        (startScope store.heap (.object object) inner place))
        [.giveBack (some (.name outputName))] after = .ok (.giveBack (.text text)) after := by
      rw [inOrder, run_bind_ok hgive]
      rfl
    have hbody : inOrder (exec (bound + 5) around [.locals inner, .locals place]) (pageBody rows)
        store = .ok (.giveBack (.text text)) after := by
      rw [pageBody, inOrder]
      exact (run_bind_ok (hwithin.trans ((run_bind_ok hok).trans hflow))).trans rfl
    have hresult : (inOrder (exec (bound + 5) around [.locals inner, .locals place])
        (pageBody rows) >>= fun flow => pure flow.result) store = .ok (.text text) after :=
      (run_bind_ok hbody).trans rfl
    exact ⟨after, (run_bind_ok hresult).trans (textOf_text text after),
      hwrites.grows (grows_started _) (Nat.le_refl _), hafter⟩

/-- The heap in which the parameters of a routine that includes fragments are bound. -/
def boundPage (h : Heap) (data escape : Value) (byName byValue : Nat) : Heap :=
  h.newFrame.2.declareAll [.locals h.frames.size] pageParams
    [data, escape, .native fragmentFunction (.service .fragment) byName,
      .native chosenFragmentFunction (.service .chosenFragment) byValue]

theorem grows_boundPage (h : Heap) (data escape : Value) (byName byValue : Nat) :
    Grows h (boundPage h data escape byName byValue) :=
  (grows_boundTo h pageParams _).1

/-- A routine that includes fragments binds its parameters and runs its body in a frame of its
own. -/
theorem invoke_page {byName byValue : Nat} (hhooks : s.hooks = inclusionHooks byName byValue)
    {routine : Compiled} {body : List Stmt} (hroutine : routine.program = ⟨pageParams, body⟩)
    (fragment : String → Run String) (data : Value) (store : Store) (bound : Nat) {heap : Heap}
    (hheap : heap = boundPage store.heap data s.escape byName byValue) :
    s.invoke bound fragment routine data store
      = ((inOrder (exec bound ⟨s.perform fragment, routine.number, callLimit⟩
            [.locals heap.frames.size, .locals store.heap.frames.size]) body >>=
          fun flow => pure flow.result) >>= Run.textOf)
        { store with heap := heap.newFrame.2 } := by
  rw [hheap]
  exact invoke_constants (providers_of_inclusions hhooks) hroutine rfl fragment data store bound

/-- The frame of the parameters of a routine that includes fragments. -/
theorem given_boundPage (h : Heap) (data escape : Value) (byName byValue : Nat) :
    Given (boundPage h data escape byName byValue) h.frames.size data := by
  have hplace : h.frames.size < h.newFrame.2.frames.size := by
    rw [Heap.size_newFrame]
    omega
  have hnodup : pageParams.Nodup := by decide
  refine ⟨((grows_newFrame h).declareAll (Nat.le_refl _) hplace _ _).2,
    Heap.get?_declareAll _ hplace hnodup (.head _), fun i => ?_⟩
  rw [Inclusion.function, Inclusion.service]
  cases i.target with
  | named front back hfront hback =>
    exact ⟨byName, Heap.get?_declareAll _ hplace hnodup (.tail _ (.tail _ (.head _)))⟩
  | chosen selector =>
    exact ⟨byValue, Heap.get?_declareAll _ hplace hnodup (.tail _ (.tail _ (.tail _ (.head _))))⟩

/-- The routine of a page comes to what the page reads. -/
theorem yields_invoke (p : Page) {byName byValue : Nat}
    (hhooks : s.hooks = inclusionHooks byName byValue) {routine : Compiled}
    (hroutine : routine.program = ⟨pageParams, pageBody p.rows⟩) (hchange : OfObjects R)
    (hobject : ∀ store, R store → store.heap.members object = .empty)
    (h : ∀ i, .call i ∈ p.rows → Yields R (fragment i.name.name) (texts i.name.name))
    (bound : Nat) :
    Yields R (s.invoke (bound + 5) fragment routine (.object object)) (p.read texts) := by
  intro store hR
  have hgiven := given_boundPage store.heap (.object object) s.escape byName byValue
  have hgrows := grows_boundPage store.heap (.object object) s.escape byName byValue
  generalize hheap : boundPage store.heap (.object object) s.escape byName byValue = heap
    at hgiven hgrows
  have hinvoke := invoke_page hhooks hroutine fragment (.object object) store (bound + 5) hheap.symm
  have hinner : heap.frames.size < heap.newFrame.2.frames.size := by
    rw [Heap.size_newFrame]
    omega
  have hempty : heap.newFrame.2.frame heap.frames.size = .empty := by
    rw [Heap.frame_newFrame, if_pos rfl]
  have hframes := hgrows.trans (grows_newFrame heap)
  have hnext : R { store with heap := heap.newFrame.2 } := hchange store _ hR hframes.objects
  have hcalls : callLimit ≠ 0 := by decide
  refine .of_grows hinvoke hframes ?_
  exact exec_pageBody p.rows rfl hcalls hchange h hgiven.newFrame (hobject _ hnext) hinner hempty
    hnext bound

end Invoking

end Stencil.Reading
