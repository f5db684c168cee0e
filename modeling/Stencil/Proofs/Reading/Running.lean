import Stencil.Proofs.Reading.Parsing
import Stencil.Proofs.Reading.Scopes

/-!
# Running the program of a tree

The statements of a tree add to the output what reading the tree gives, and fail as reading fails.

* `Reads`, `Shows` — an expression has a value that stands for a datum, or is displayed as a text;
* `Adds` — a run adds a text to the output;
* `reads_path`, `adds_write` — paths and the statements that write;
* `adds_stmtsOf` — the statements of a tree.
-/

namespace Stencil.Reading

open Routine Template

section Running

variable (around : Surroundings) {scope : Scope} {names : Names} {o : Nat} {out : String}
  {store : Store} {bound : Nat}

/-! ### Expressions -/

/-- The expression has a value that stands for the datum, or fails. -/
def Reads (around : Surroundings) (scope : Scope) (store : Store) (e : Expr) (bound : Nat) :
    Except Failure Datum → Prop
  | .ok d => ∃ v, eval bound around scope e store = .ok v store ∧ Means store.heap v d
  | .error f => eval bound around scope e store = .error (.failed f) store

theorem reads_name (hs : Sees store.heap scope names o out) (x : Variable) (hbound : 1 ≤ bound) :
    Reads around scope store (.name x.name) bound
      (match names x.name with
        | none => .error (.unbound x.name)
        | some j => .ok (some j)) := by
  have heval : eval bound around scope (.name x.name) = valueOf scope x.name := by
    obtain ⟨bound, rfl⟩ : ∃ b, bound = b + 1 := ⟨bound - 1, by omega⟩
    rw [eval]
  cases hx : names x.name with
  | none =>
    show eval bound around scope (.name x.name) store = _
    rw [heval]
    exact valueOf_unbound (hs.unknown x hx) hs.unguarded x.unknown
  | some j =>
    obtain ⟨v, hv, hmeans⟩ := hs.known x j hx
    refine ⟨v, ?_, hmeans⟩
    rw [heval]
    exact valueOf_found hv

variable {around : Surroundings}

theorem reads_member {e : Expr} {r : Except Failure Datum} (h : Reads around scope store e bound r)
    (m : Identifier) :
    Reads around scope store (.member e m.name false) (bound + 1)
      (r >>= Datum.member m.name) := by
  have heval : eval (bound + 1) around scope (.member e m.name false)
      = (eval bound around scope e >>= fun v => getProperty v m.name) := by
    rw [eval]
    rfl
  cases r with
  | error f =>
    show eval (bound + 1) around scope (.member e m.name false) store = _
    rw [heval]
    exact run_bind_error h
  | ok d =>
    obtain ⟨v, hv, hmeans⟩ := h
    show Reads around scope store _ _ (d.member m.name)
    rcases property?_means hmeans m with ⟨v', d', hproperty, hd, hmeans'⟩ | ⟨hproperty, hd⟩
    · rw [hd]
      refine ⟨v', ?_, hmeans'⟩
      rw [heval, run_bind_ok hv]
      exact getProperty_found hproperty
    · rw [hd]
      show eval (bound + 1) around scope (.member e m.name false) store = _
      rw [heval, run_bind_ok hv]
      exact getProperty_unreadable hproperty

theorem reads_members (members : List Identifier) {e : Expr} {r : Except Failure Datum}
    (h : Reads around scope store e bound r) :
    Reads around scope store (members.foldl (fun e m => .member e m.name false) e)
      (bound + members.length) (r >>= readMembers members) := by
  induction members generalizing e r bound with
  | nil =>
    cases r with
    | error f => exact h
    | ok d => exact h
  | cons m members ih =>
    have hmore := ih (reads_member h m)
    have hcount : bound + (m :: members).length = bound + 1 + members.length := by
      rw [List.length_cons]
      omega
    rw [hcount]
    cases r with
    | error f => exact hmore
    | ok d => exact hmore

/-- The expression of a path has what reading the path gives. -/
theorem reads_path (around : Surroundings) (hs : Sees store.heap scope names o out) (p : Path)
    (hbound : p.members.length + 1 ≤ bound) :
    Reads around scope store p.expr bound (p.read names) := by
  obtain ⟨bound, rfl⟩ : ∃ b, bound = b + p.members.length := ⟨bound - p.members.length, by omega⟩
  have hhead : 1 ≤ bound := by omega
  have h := reads_members p.members (reads_name around hs p.head hhead)
  rw [Path.read]
  cases hx : names p.head.name with
  | none =>
    rw [hx] at h
    exact h
  | some j =>
    rw [hx] at h
    exact h

/-- The expression has a value that is displayed as the text, or fails. -/
def Shows (around : Surroundings) (scope : Scope) (store : Store) (e : Expr) (bound : Nat) :
    Except Failure String → Prop
  | .ok s => ∃ v, eval bound around scope e store = .ok v store ∧ store.heap.display v = some s
  | .error f => eval bound around scope e store = .error (.failed f) store

theorem shows_text (s : String) (hbound : 1 ≤ bound) :
    Shows around scope store (.text s) bound (.ok s) := by
  obtain ⟨bound, rfl⟩ : ∃ b, bound = b + 1 := ⟨bound - 1, by omega⟩
  refine ⟨.text s, ?_, display_text store.heap s⟩
  rw [eval]
  rfl

/-- An expression shows the datum that it reads. -/
theorem Reads.shows {e : Expr} {r : Except Failure Datum} (h : Reads around scope store e bound r) :
    Shows around scope store e bound (r.map Datum.display) := by
  cases r with
  | error f => exact h
  | ok d =>
    obtain ⟨v, hv, hmeans⟩ := h
    exact ⟨v, hv, display_means hmeans⟩

/-- The surroundings escape when they are asked to, and let calls nest. -/
structure Escapes (around : Surroundings) : Prop where
  /-- They escape the text of the first argument. -/
  perform : ∀ args, around.perform .escape args
    = do return .text (Text.escape (← Run.textOf (argument args 0)))
  /-- One more call may be nested. -/
  calls : around.calls ≠ 0

/-- The function that escapes gives the escaped text of its argument. -/
theorem Escapes.callValue (ha : Escapes around) (name : String) (identity : Nat) {v : Value}
    {d : Datum} (hv : Means store.heap v d) (hbound : 1 ≤ bound) :
    callValue bound around (.native name (.service .escape) identity) [v] store
      = .ok (.text (Text.escape d.display)) store := by
  obtain ⟨bound, rfl⟩ : ∃ b, bound = b + 1 := ⟨bound - 1, by omega⟩
  obtain ⟨calls, hcalls⟩ : ∃ n, around.calls = n + 1 :=
    ⟨around.calls - 1, by have := ha.calls; omega⟩
  rw [Routine.callValue, hcalls]
  show around.perform .escape [v] store = _
  rw [ha.perform]
  exact (run_bind_ok (textOf_means hv)).trans rfl

/-- A call of a function by its name evaluates the name, then the arguments, and then calls. -/
theorem eval_callName (around : Surroundings) (scope : Scope) (name : String) (args : List Expr)
    (bound : Nat) :
    eval (bound + 1) around scope (.call (.name name) args false)
      = (eval bound around scope (.name name) >>= fun f =>
          args.mapM (eval bound around scope) >>= callValue bound around f) := by
  rw [eval]
  · rfl
  · exact nofun
  · exact nofun

/-- A call of the function that escapes shows the escaped text of its argument. -/
theorem shows_escape (hs : Sees store.heap scope names o out) (ha : Escapes around) {e : Expr}
    {r : Except Failure Datum} (hbound : 1 ≤ bound) (h : Reads around scope store e bound r) :
    Shows around scope store (.call (.name escapeName) [e] false) (bound + 1)
      (r.map fun d => Text.escape d.display) := by
  obtain ⟨name, identity, hname⟩ := hs.escapes
  have hcallee : eval bound around scope (.name escapeName) store
      = .ok (.native name (.service .escape) identity) store := by
    obtain ⟨bound, rfl⟩ : ∃ b, bound = b + 1 := ⟨bound - 1, by omega⟩
    rw [eval]
    exact valueOf_found hname
  cases r with
  | error f =>
    show eval (bound + 1) around scope (.call (.name escapeName) [e] false) store = _
    rw [eval_callName, run_bind_ok hcallee]
    refine run_bind_error ?_
    rw [List.mapM_cons]
    exact run_bind_error h
  | ok d =>
    obtain ⟨v, hv, hmeans⟩ := h
    have hargs : [e].mapM (eval bound around scope) store = .ok [v] store := by
      rw [List.mapM_cons]
      exact (run_bind_ok hv).trans rfl
    refine ⟨.text (Text.escape d.display), ?_, display_text store.heap _⟩
    rw [eval_callName, run_bind_ok hcallee, run_bind_ok hargs,
      ha.callValue name identity hmeans hbound]

/-! ### Adding to the output -/

/-- The run adds the text to the output, and changes nothing else that there was, or it fails. -/
def Adds (o : Nat) (run : Run Flow) (store : Store) (out : String) : Except Failure String → Prop
  | .ok s => ∃ heap, run store = .ok .onward { store with heap := heap }
    ∧ Writes o store.heap heap (out ++ s)
  | .error f => ∃ store', run store = .error (.failed f) store'

theorem Adds.congr {m m' : Run Flow} {r : Except Failure String} (h : m store = m' store)
    (h' : Adds o m' store out r) : Adds o m store out r := by
  cases r with
  | error f =>
    obtain ⟨store', hfail⟩ := h'
    exact ⟨store', h.trans hfail⟩
  | ok s =>
    obtain ⟨heap, hok, hwrites⟩ := h'
    exact ⟨heap, h.trans hok, hwrites⟩

/-- What adds to the output behind a step that leaves it alone. -/
theorem Adds.after {α : Type} {m : Run α} {f : α → Run Flow} {a : α} {heap : Heap}
    {r : Except Failure String} (hm : m store = .ok a { store with heap := heap })
    (hw : Writes o store.heap heap out) (h : Adds o (f a) { store with heap := heap } out r) :
    Adds o (m >>= f) store out r := by
  cases r with
  | error failure =>
    obtain ⟨store', hfail⟩ := h
    exact ⟨store', (run_bind_ok hm).trans hfail⟩
  | ok s =>
    obtain ⟨heap', hok, hwrites⟩ := h
    exact ⟨heap', (run_bind_ok hm).trans hok, hw.trans hwrites⟩

/-- Adding one text and then another adds both. -/
theorem Adds.append (first rest : Run Flow) {r r' : Except Failure String}
    {m : Run Flow} (hm : ∀ store store', first store = .ok .onward store' → m store = rest store')
    (hm' : ∀ store store' halt, first store = .error halt store' → m store = .error halt store')
    (h : Adds o first store out r)
    (h' : ∀ heap s, Writes o store.heap heap (out ++ s) →
      Adds o rest { store with heap := heap } (out ++ s) r') :
    Adds o m store out (do return (← r) ++ (← r')) := by
  cases r with
  | error f =>
    obtain ⟨store', hfail⟩ := h
    exact ⟨store', hm' _ _ _ hfail⟩
  | ok s =>
    obtain ⟨heap, hok, hwrites⟩ := h
    have hrest := h' heap s hwrites
    cases r' with
    | error f =>
      obtain ⟨store', hfail⟩ := hrest
      exact ⟨store', (hm _ _ hok).trans hfail⟩
    | ok s' =>
      obtain ⟨heap', hok', hwrites'⟩ := hrest
      refine ⟨heap', (hm _ _ hok).trans hok', ?_⟩
      rw [← String.append_assoc]
      exact hwrites.trans hwrites'

/-- A text joined with a value is joined with what the value shows. -/
theorem sum_text {h : Heap} {v : Value} {s : String} (hv : h.display v = some s) (out : String) :
    h.sum (.text out) v = some (.text (out ++ s)) := by
  have plain (hprimitive : h.primitive v = some v) (hplain : h.display v = some (plainText v)) :
      h.sum (.text out) v = some (.text (out ++ s)) := by
    rw [hplain, Option.some.injEq] at hv
    rw [Heap.sum]
    rw [hprimitive, ← hv]
    rfl
  have shaped (hprimitive : h.primitive v = (h.display v).map .text) :
      h.sum (.text out) v = some (.text (out ++ s)) := by
    rw [Heap.sum]
    rw [hprimitive, hv]
    rfl
  cases v with
  | array place => exact shaped rfl
  | object place => exact shaped rfl
  | native name code identity => exact shaped rfl
  | closure routine site params body scope => exact shaped rfl
  | _ =>
    refine plain rfl ?_
    rw [Heap.display]
    cases h.arrays.size <;> rfl

/-- The name of the output has the text that was written so far. -/
theorem eval_output (around : Surroundings) (hs : Outputs store.heap scope o out)
    (hbound : 1 ≤ bound) :
    eval bound around scope (.name outputName) store = .ok (.text out) store := by
  obtain ⟨bound, rfl⟩ : ∃ b, bound = b + 1 := ⟨bound - 1, by omega⟩
  rw [eval]
  exact valueOf_found hs.find?_output

/-- What a statement that writes comes to. -/
theorem exec_write_eq (hs : Outputs store.heap scope o out) (e : Expr) (hbound : 1 ≤ bound) :
    exec (bound + 2) around scope (writeStmt e) store
      = ((eval bound around scope e >>= fun operand =>
          Run.heap >>= fun heap =>
          Run.finite (heap.sum (.text out) operand) >>= fun v =>
          assignName scope outputName v >>= fun _ => pure v) >>= fun _ => pure .onward) store := by
  have heval : eval (bound + 1) around scope (.assign (some .add) (.name outputName) e)
      = (eval bound around scope (.name outputName) >>= fun old =>
          eval bound around scope e >>= fun operand =>
          Run.heap >>= fun heap =>
          Run.finite (heap.sum old operand) >>= fun v =>
          assignName scope outputName v >>= fun _ => pure v) := by
    rw [eval]
    rfl
  have hexec : exec (bound + 2) around scope (writeStmt e)
      = (eval (bound + 1) around scope (.assign (some .add) (.name outputName) e) >>= fun _ =>
          pure .onward) := by
    rw [writeStmt, exec]
  rw [hexec, heval]
  exact run_bind_congr (run_bind_ok (eval_output around hs hbound))

/-- Writing fails as the evaluation of what is written fails. -/
theorem exec_write_error (hs : Outputs store.heap scope o out) {e : Expr} (hbound : 1 ≤ bound)
    {halt : Halt} {store' : Store} (h : eval bound around scope e store = .error halt store') :
    exec (bound + 2) around scope (writeStmt e) store = .error halt store' :=
  (exec_write_eq hs e hbound).trans (run_bind_error (run_bind_error h))

/-- Writing a value adds what it shows, whatever its evaluation did, as long as the output is as it
was. -/
theorem exec_write_after (hs : Outputs store.heap scope o out) {e : Expr} (hbound : 1 ≤ bound)
    {v : Value} {store' : Store} (h : eval bound around scope e store = .ok v store')
    (hs' : Outputs store'.heap scope o out) {s : String}
    (hshown : store'.heap.display v = some s) :
    exec (bound + 2) around scope (writeStmt e) store
      = .ok .onward { store' with
          heap := store'.heap.setLocal o outputName ⟨.text (out ++ s), true⟩ } := by
  have hassigned : assignName scope outputName (.text (out ++ s)) store'
      = .ok () { store' with
          heap := store'.heap.setLocal o outputName ⟨.text (out ++ s), true⟩ } :=
    run_attempt_ok (hs'.assign_eq (out ++ s))
  have hheap : Run.heap store' = .ok store'.heap store' := rfl
  have hsum : Run.finite (store'.heap.sum (.text out) v) store'
      = .ok (.text (out ++ s)) store' := by
    rw [sum_text hshown]
    rfl
  refine (exec_write_eq hs e hbound).trans (run_bind_ok (a := .text (out ++ s)) ?_)
  refine (run_bind_ok h).trans ?_
  refine (run_bind_ok hheap).trans ?_
  refine (run_bind_ok hsum).trans ?_
  exact (run_bind_ok hassigned).trans rfl

/-- Writing a value adds what it shows, whatever its evaluation wrote elsewhere. -/
theorem exec_write (hs : Outputs store.heap scope o out) {e : Expr} (hbound : 1 ≤ bound)
    {v : Value} {store' : Store} (h : eval bound around scope e store = .ok v store')
    (hw : Writes o store.heap store'.heap out) {s : String}
    (hshown : store'.heap.display v = some s) :
    ∃ heap, exec (bound + 2) around scope (writeStmt e) store
        = .ok .onward { store' with heap := heap }
      ∧ Writes o store.heap heap (out ++ s) :=
  ⟨_, exec_write_after hs hbound h (hs.writes hw) hshown,
    hw.trans ((hs.writes hw).writes_setLocal (out ++ s))⟩

/-- Writing a value adds what it shows. -/
theorem adds_write (hs : Sees store.heap scope names o out) {e : Expr} {r : Except Failure String}
    (hbound : 1 ≤ bound) (h : Shows around scope store e bound r) :
    Adds o (exec (bound + 2) around scope (writeStmt e)) store out r := by
  cases r with
  | error f => exact ⟨store, exec_write_error hs.outputs hbound h⟩
  | ok s =>
    obtain ⟨v, hv, hshown⟩ := h
    exact exec_write hs.outputs hbound hv (.refl hs.outputs) hshown

/-! ### Blocks and loops -/

/-- A new frame is in front of a scope. -/
theorem withFrame_eq (scope : Scope) (store : Store) :
    withFrame scope store
      = .ok (.locals store.heap.frames.size :: scope)
          { store with heap := store.heap.newFrame.2 } :=
  rfl

/-- A block adds what its statements add. -/
theorem adds_block (hs : Sees store.heap scope names o out) {stmts : List Stmt}
    {r : Except Failure String}
    (h : ∀ (scope : Scope) (store : Store), Sees store.heap scope names o out →
      Adds o (inOrder (exec bound around scope) stmts) store out r) :
    Adds o (exec (bound + 1) around scope (.block stmts)) store out r := by
  have hexec : exec (bound + 1) around scope (.block stmts)
      = (withFrame scope >>= fun inner => inOrder (exec bound around inner) stmts) := by
    rw [exec]
  rw [hexec]
  exact Adds.after (withFrame_eq scope store) (writes_newFrame hs) (h _ _ hs.newFrame)

/-- The round of a loop for one item. -/
def round (bound : Nat) (around : Surroundings) (scope : Scope) (x : Variable) (body : Stmt)
    (v : Value) : Run Flow := do
  let inner ← withFrame scope
  declareName inner x.name v false
  exec bound around inner body

/-- A round adds what the body adds with the item under its name. -/
theorem adds_round (hs : Sees store.heap scope names o out) (x : Variable) {v : Value} {j : Json}
    (hv : Means store.heap v (some j)) {body : Stmt} {bound : Nat} {r : Except Failure String}
    (h : ∀ (scope : Scope) (store : Store), Sees store.heap scope (names.bind x.name j) o out →
      Adds o (exec bound around scope body) store out r) :
    Adds o (round bound around scope x body v) store out r := by
  have hround : round bound around scope x body v
      = ((withFrame scope >>= fun inner => declareName inner x.name v false >>= fun _ => pure inner)
          >>= fun inner => exec bound around inner body) := rfl
  rw [hround]
  have hopen : (withFrame scope >>= fun inner =>
      declareName inner x.name v false >>= fun _ => pure inner) store
      = .ok (.locals store.heap.frames.size :: scope)
          { store with heap := withVariable store.heap x.name ⟨v, false⟩ } := rfl
  exact Adds.after hopen (writes_withVariable hs x.name ⟨v, false⟩) (h _ _ (hs.bindItem x hv))

/-- A loop adds what its rounds add, one after the other. -/
theorem adds_eachItem {each : Value → Run Flow} {text : Json → Except Failure String}
    (h : ∀ (store : Store) (out : String) (v : Value) (j : Json),
      Sees store.heap scope names o out → Means store.heap v (some j) →
      Adds o (each v) store out (text j))
    {vs : List Value} {js : List Json} {before : Heap} (hvs : MeansAll before vs js)
    (hs : Sees store.heap scope names o out) (he : Extends before store.heap) :
    Adds o (eachItem each vs) store out (do return String.join (← js.mapM text)) := by
  induction hvs generalizing store out with
  | nil =>
    refine ⟨store.heap, rfl, ?_⟩
    show Writes o store.heap store.heap (out ++ "")
    rw [String.append_empty]
    exact .refl hs.outputs
  | @cons v j vs js hv hvs ih =>
    have hjoin : (do return String.join (← (j :: js).mapM text) : Except Failure String)
        = (do return (← text j) ++ (← (do return String.join (← js.mapM text)))) := by
      rw [List.mapM_cons]
      cases text j with
      | error f => rfl
      | ok s =>
        cases js.mapM text with
        | error f => rfl
        | ok ss => exact congrArg Except.ok String.join_cons
    rw [hjoin]
    refine Adds.append (each v) (eachItem each vs) ?_ ?_
      (h store out v j hs (hv.extend he)) ?_
    · intro store store' hok
      exact (run_bind_ok hok).trans rfl
    · intro store store' halt herror
      exact run_bind_error herror
    · intro heap s hwrites
      exact ih (hs.writes hwrites) (he.trans hwrites.extends)

/-- A choice adds what the chosen part adds. -/
theorem adds_branch {e : Expr} {r : Except Failure Datum} (h : Reads around scope store e bound r)
    {yes no : Stmt} {ryes rno : Except Failure String}
    (hyes : Adds o (exec bound around scope yes) store out ryes)
    (hno : Adds o (exec bound around scope no) store out rno) :
    Adds o (exec (bound + 1) around scope (.branch e yes (some no))) store out
      (do if (← r).truthy then ryes else rno) := by
  have hexec : exec (bound + 1) around scope (.branch e yes (some no))
      = (eval bound around scope e >>= fun v =>
          if v.truthy then exec bound around scope yes else exec bound around scope no) := by
    rw [exec]
  rw [hexec]
  cases r with
  | error f => exact ⟨store, run_bind_error h⟩
  | ok d =>
    obtain ⟨v, hv, hmeans⟩ := h
    refine Adds.congr (run_bind_ok hv) ?_
    rw [truthy_means hmeans]
    show Adds o _ store out (if d.truthy then ryes else rno)
    by_cases htruthy : d.truthy = true
    · rw [if_pos htruthy, if_pos htruthy]
      exact hyes
    · rw [if_neg htruthy, if_neg htruthy]
      exact hno

/-- A repetition adds what its rounds add, if there is something to visit. -/
theorem adds_each (hs : Sees store.heap scope names o out) {e : Expr} {r : Except Failure Datum}
    (hsource : Reads around scope store e bound r) (x : Variable) {body : Stmt}
    {text : Json → Except Failure String}
    (h : ∀ (scope : Scope) (store : Store) (out : String) (j : Json),
      Sees store.heap scope (names.bind x.name j) o out →
      Adds o (exec bound around scope body) store out (text j)) :
    Adds o (exec (bound + 1) around scope (.each .items (some .constant) x.name e body)) store out
      (do
        let items ← (← r).items
        let texts ← items.mapM text
        return String.join texts) := by
  have hexec : exec (bound + 1) around scope (.each .items (some .constant) x.name e body)
      = (eval bound around scope e >>= fun v =>
          itemsIn v >>= eachItem (round bound around scope x body)) := by
    rw [exec]
    rfl
  rw [hexec]
  cases r with
  | error f => exact ⟨store, run_bind_error hsource⟩
  | ok d =>
    obtain ⟨v, hv, hmeans⟩ := hsource
    refine Adds.congr (run_bind_ok hv) ?_
    show Adds o _ store out (do
      let items ← d.items
      let texts ← items.mapM text
      return String.join texts)
    rcases itemsIn_means hmeans with ⟨vs, js, hitems, hd, hall⟩ | ⟨f, hitems, hd⟩
    · rw [hd]
      refine Adds.congr (run_bind_ok hitems) ?_
      refine adds_eachItem ?_ hall hs (.refl _)
      intro store out v j hs hv
      exact adds_round hs x hv fun scope store hs => h scope store out j hs
    · rw [hd]
      exact ⟨store, run_bind_error hitems⟩

/-! ### Trees -/

mutual

/-- A bound that the statement of a node stays below. -/
def Node.steps : Node (List Char) → Nat
  | .text _ => 3
  | .escaped p => p.members.length + 4
  | .raw p => p.members.length + 3
  | .branch test yes no => test.members.length + stepsOf yes + stepsOf no + 3
  | .each _ source body => source.members.length + stepsOf body + 3

/-- A bound that the statements of a tree stay below. -/
def stepsOf : List (Node (List Char)) → Nat
  | [] => 0
  | n :: ns => n.steps + stepsOf ns

end

theorem Node.two_le_steps (n : Node (List Char)) : 2 ≤ n.steps := by
  cases n <;> rw [Node.steps] <;> omega

mutual

/-- The statement of a node adds what reading the node gives. -/
theorem Node.adds_stmt (n : Node (List Char)) (ha : Escapes around) {names : Names} {scope : Scope}
    {store : Store} {out : String} (hs : Sees store.heap scope names o out) {bound : Nat}
    (hbound : n.steps ≤ bound) :
    Adds o (exec bound around scope n.stmt) store out (n.read id names) := by
  obtain ⟨bound, rfl⟩ : ∃ b, bound = b + 2 := by
    refine ⟨bound - 2, ?_⟩
    have := n.two_le_steps
    omega
  match n with
  | .text cs =>
    rw [Node.steps] at hbound
    have hpositive : 1 ≤ bound := by omega
    exact adds_write hs hpositive (shows_text (String.ofList cs) hpositive)
  | .escaped p =>
    rw [Node.steps] at hbound
    obtain ⟨bound, rfl⟩ : ∃ b, bound = b + 1 := ⟨bound - 1, by omega⟩
    have hread := reads_path around hs p (by omega : p.members.length + 1 ≤ bound)
    have hshows := shows_escape hs ha (by omega) hread
    rw [Node.read, bind_pure_comp]
    exact adds_write hs (by omega) hshows
  | .raw p =>
    rw [Node.steps] at hbound
    have hread := reads_path around hs p (by omega : p.members.length + 1 ≤ bound)
    rw [Node.read, bind_pure_comp]
    exact adds_write hs (by omega) hread.shows
  | .branch test yes no =>
    rw [Node.steps] at hbound
    have hread := reads_path around hs test (by omega : test.members.length + 1 ≤ bound + 1)
    have hyes := adds_block hs fun _ _ hs =>
      adds_stmtsOf yes ha hs (by omega : stepsOf yes ≤ bound)
    have hno := adds_block hs fun _ _ hs =>
      adds_stmtsOf no ha hs (by omega : stepsOf no ≤ bound)
    rw [Node.stmt, Node.read]
    exact adds_branch hread hyes hno
  | .each x source body =>
    rw [Node.steps] at hbound
    have hread := reads_path around hs source (by omega : source.members.length + 1 ≤ bound + 1)
    rw [Node.stmt, Node.read]
    refine adds_each hs hread x ?_
    intro scope store out j hs
    exact adds_block hs fun _ _ hs => adds_stmtsOf body ha hs (by omega)

/-- The statements of a tree add what reading the tree gives. -/
theorem adds_stmtsOf (ns : List (Node (List Char))) (ha : Escapes around) {names : Names}
    {scope : Scope} {store : Store} {out : String} (hs : Sees store.heap scope names o out)
    {bound : Nat} (hbound : stepsOf ns ≤ bound) :
    Adds o (inOrder (exec bound around scope) (stmtsOf ns)) store out (readNodes id names ns) := by
  match ns with
  | [] =>
    refine ⟨store.heap, rfl, ?_⟩
    show Writes o store.heap store.heap (out ++ "")
    rw [String.append_empty]
    exact .refl hs.outputs
  | n :: ns =>
    rw [stepsOf] at hbound
    have hsteps : n.steps ≤ bound := by omega
    refine Adds.append (exec bound around scope n.stmt)
      (inOrder (exec bound around scope) (stmtsOf ns)) ?_ ?_ (n.adds_stmt ha hs hsteps) ?_
    · intro store store' hok
      exact (run_bind_ok hok).trans rfl
    · intro store store' halt herror
      exact run_bind_error herror
    · intro heap s hwrites
      exact adds_stmtsOf ns ha (hs.writes hwrites) (by omega)

end

end Running

end Stencil.Reading
