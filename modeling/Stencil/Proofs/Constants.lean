import Stencil.Proofs.Functions.Reached
import Stencil.Proofs.NestedRender
import Stencil.Proofs.Pinned

/-!
# Constants

A constant has its value in all that comes later, be it in the routine that declared it, in functions
that captured the frame, or in fragments that are rendered in between: every assignment to it fails.
Only a declaration does not look at what it replaces.  One of the same name in the same frame gives
the name another value, and the functions that captured the frame see that one.

* `Pin.SparedBy` — settings whose code leaves true what is known of a variable;
* `Pin.SparedBy.renderTop` — a render does so too;
* `Act`, `Later` — what parts of runs do, short of declaring a name in a frame again, and what comes
  later through it;
* `constant_kept` — the main theorem;
* `render_redeclaredConstant` — a constant that is declared again.
-/

namespace Stencil

open Routine

namespace Routine.Pin

variable {p : Pin} {s : Setting}

/-! ### Renders -/

/-- The code of helpers and the sources of values leave true what is known of the variable. -/
structure SparedBy (p : Pin) (s : Setting) : Prop where
  codes : ∀ code ∈ s.codes, ∀ args g, p.Keeps g → p.Keeps (code args g).2
  providers : ∀ make, .custom make ∈ s.hooks.providers → ∀ g, p.Keeps g → p.Keeps (make g).2

namespace Survives

/-- What is caught goes on where the failure left the store. -/
theorem tryCatch {α : Type} {m : Run α} {handle : Halt → Run α} (hm : p.Survives m)
    (hhandle : ∀ halt, p.Survives (handle halt)) : p.Survives (tryCatch m handle) := by
  intro store hstore
  have hfirst := hm store hstore
  cases hrun : m store with
  | ok a t =>
    rw [Run.leaves_ok hrun] at hfirst
    rw [Run.leaves_ok (run_tryCatch_ok hrun)]
    exact hfirst
  | error halt t =>
    rw [Run.leaves_error hrun] at hfirst
    rw [Run.leaves, run_tryCatch_error hrun]
    exact hhandle halt t hfirst

theorem hidingFailure {m : Run String} (hm : p.Survives m) :
    p.Survives (Setting.hidingFailure m) := by
  refine hm.tryCatch fun halt => ?_
  cases halt with
  | endless => exact endless
  | failed f =>
    dsimp only
    split
    · exact fail f
    · exact pure ""

theorem fillMessage (message : String) (argument : Option Value) :
    p.Survives (Setting.fillMessage message argument) := by
  unfold Setting.fillMessage
  split
  · exact (looks .heap).bind fun _ =>
      (mapM fun _ _ => looks (Origins.looks_placeholderText _ _)).bind fun _ => pure _
  · exact pure message

theorem compileNested (s : Setting) (template : String) : p.Survives (s.compileNested template) := by
  intro store hstore
  have hheap := heap_compile s template store
  rw [Run.leaves, Setting.compileNested]
  cases hcompile : s.compile template store with
  | ok routine t =>
    rw [hcompile] at hheap
    exact hheap ▸ hstore
  | error stop t =>
    rw [hcompile] at hheap
    cases stop <;> exact hheap ▸ hstore

end Survives

namespace SparedBy

variable (h : p.SparedBy s)
include h

/-- What a routine asks for, given how fragments are rendered. -/
theorem perform {fragment : String → Run String} (hfragment : ∀ name, p.Survives (fragment name))
    (service : Service) (args : List Value) : p.Survives (s.perform fragment service args) := by
  cases service with
  | escape => exact (Survives.looks (.textOf _)).bind fun _ => .pure _
  | fragment =>
    exact (Survives.looks (Origins.looks_firstText args)).bind fun name =>
      (hfragment name).bind fun _ => .pure _
  | chosenFragment =>
    cases args with
    | nil => exact .pure _
    | cons v vs =>
      cases v with
      | text name => exact (hfragment name).hidingFailure.bind fun _ => .pure _
      | undefined | null | bool | number | array | object | native | closure => exact .pure _
  | message =>
    exact (Survives.looks (Origins.looks_firstText args)).bind fun _ =>
      (Survives.fillMessage _ _).bind fun _ => .pure _
  | helper slot =>
    rw [Setting.perform]
    cases hcode : s.codes[slot]? with
    | none => exact .pure _
    | some code => exact .attempt (h.codes code (Array.mem_of_getElem? hcode) args)

theorem provide {source : Provider} (hsource : source ∈ s.hooks.providers) :
    p.Survives (s.provide source) := by
  cases source with
  | constant v => exact .pure v
  | helpers =>
    have hmake (members : Roster Value) : p.Survives (Run.newObject members) :=
      .make fun _ hg => hg.of_frames rfl
    exact hmake _
  | custom make => exact .make (h.providers make hsource)

theorem invoke {fragment : String → Run String} (hfragment : ∀ name, p.Survives (fragment name))
    (bound : Nat) (routine : Compiled) (data : Value) :
    p.Survives (s.invoke bound fragment routine data) := by
  refine (Survives.mapM fun _ hsource => h.provide hsource).bind fun values => ?_
  dsimp only
  split
  · exact .fail _
  · exact (Survives.programRun (h.perform hfragment) _ _ _ _ _).bind fun v => .looks (.textOf v)

/-- A fragment within which others may nest. -/
theorem includeFragment (bound : Nat) (data : Value) (levels : Nat) (name : String) :
    p.Survives (s.includeFragment bound data levels name) := by
  induction levels generalizing name with
  | zero =>
    rw [Setting.includeFragment]
    split <;> exact .fail _
  | succ levels ih =>
    rw [Setting.includeFragment]
    split
    · exact .fail _
    · dsimp only [Setting.renderNested]
      split
      · exact .pure _
      · exact (Survives.compileNested s _).bind fun routine => h.invoke ih bound routine data

/-- **A render leaves true what is known of a variable** that is not its own. -/
theorem renderTop (bound : Nat) (routine : Compiled) (data : Value) :
    p.Survives (s.renderTop bound routine data) :=
  h.invoke (h.includeFragment bound data nestingLimit) bound routine data

end SparedBy

end Routine.Pin

/-! ### Declarations -/

namespace Routine

/-- The value that a variable is declared with. -/
def declaredValue (evaluate : Expr → Run Value) : Option Expr → Run Value
  | some e => evaluate e
  | none => return .undefined

/-- Declarations in a row. -/
theorem exec_declare_cons (bound : Nat) (around : Surroundings) (scope : Scope) (kind : DeclKind)
    (name : String) (value : Option Expr) (bindings : List (String × Option Expr)) :
    exec (bound + 1) around scope (.declare kind ((name, value) :: bindings)) = (do
      let v ← declaredValue (eval bound around scope) value
      declareName scope name v kind.changeable
      exec (bound + 1) around scope (.declare kind bindings)) := by
  cases value <;> simp only [exec, List.forM, declaredValue, bind_assoc]

/-- In a frame that is there, a variable that was declared is there. -/
theorem slot?_declare {g : Heap} {place : Nat} (hplace : place < g.frames.size) (rest : Scope)
    (name : String) (b : Binding) :
    (g.declare (.locals place :: rest) name b).slot? (.inFrame place name) = some b := by
  show ((g.setLocal place name b).frame place).get? name = some b
  rw [Heap.frame_setLocal g place name b hplace, if_pos rfl, Roster.get?_insert, if_pos rfl]

end Routine

/-! ### What comes later -/

/-- What parts of runs of the engine do, other than to declare the name again in the frame. -/
inductive Act (e : Engine) (place : Nat) (name : String) : {α : Type} → Run α → Prop where
  /-- An expression is evaluated, with all calls in it. -/
  | eval (bound r calls : Nat) (scope : Scope) (x : Expr) {vs : List Value}
    {ask : Service → List Value → Run Value} : Asks e vs ask →
    Act e place name (Routine.eval bound ⟨ask, r, calls⟩ scope x)
  /-- A statement is executed that does not declare the name in the frame. -/
  | exec (bound r calls : Nat) {scope : Scope} {x : Stmt} {vs : List Value}
    {ask : Service → List Value → Run Value} : Asks e vs ask →
    (scope.head? = some (.locals place) → name ∉ x.declares) →
    Act e place name (Routine.exec bound ⟨ask, r, calls⟩ scope x)
  /-- A function is called. -/
  | call (bound r calls : Nat) (f : Value) (args : List Value) {vs : List Value}
    {ask : Service → List Value → Run Value} : Asks e vs ask →
    Act e place name (callValue bound ⟨ask, r, calls⟩ f args)
  /-- A block, a loop or a function is entered. -/
  | enter (scope : Scope) : Act e place name (withFrame scope)
  /-- Another variable is declared. -/
  | declare {scope : Scope} {other : String} (v : Value) (changeable : Bool) :
    (scope.head? = some (.locals place) → name ≠ other) →
    Act e place name (declareName scope other v changeable)
  /-- A value is assigned to some name. -/
  | assign (scope : Scope) (other : String) (v : Value) : Act e place name (assignName scope other v)
  /-- A parameter is given its value. -/
  | provide {source : Provider} : source ∈ e.setting.hooks.providers →
    Act e place name (e.setting.provide source)
  /-- A routine is run as a whole. -/
  | render (bound : Nat) (routine : Compiled) (data : Value) :
    Act e place name (e.setting.renderTop bound routine data)
  /-- Something happens that concerns no variables. -/
  | aside {α : Type} {m : Run α} : (∀ s, (Run.leaves m s).heap.frames = s.heap.frames) →
    Act e place name m

/-- A store comes later than another one: parts of runs lead to it, each of which may fail. -/
inductive Later (e : Engine) (place : Nat) (name : String) (s : Store) : Store → Prop where
  | now : Later e place name s s
  | next {t : Store} {α : Type} {m : Run α} : Later e place name s t → Act e place name m →
    Later e place name s (Run.leaves m t)

section Later

variable {e : Engine} {p : Pin}

theorem survives_of_asks (h : p.SparedBy e.setting) {vs : List Value}
    {ask : Service → List Value → Run Value} (hask : Asks e vs ask) (service : Service)
    (args : List Value) : p.Survives (ask service args) := by
  cases hask with
  | rendering bound levels _ => exact h.perform (h.includeFragment bound _ levels) service args
  | alone =>
    refine h.perform (fun name => ?_) service args
    rw [Setting.includeAlone]
    split <;> exact .fail _

theorem survives_declaredValue (h : p.SparedBy e.setting) {vs : List Value}
    {ask : Service → List Value → Run Value} (hask : Asks e vs ask) (bound r calls : Nat)
    (scope : Scope) (value : Option Expr) :
    p.Survives (declaredValue (Routine.eval bound ⟨ask, r, calls⟩ scope) value) := by
  cases value with
  | none => exact .pure _
  | some x => exact (Pin.everything (survives_of_asks h hask) bound).eval r calls scope x

/-- What is known of a variable survives each part of a run. -/
theorem Act.survives (h : p.SparedBy e.setting) {α : Type} {m : Run α}
    (hm : Act e p.place p.name m) : p.Survives m := by
  cases hm with
  | eval bound r calls scope x hask =>
    exact (Pin.everything (survives_of_asks h hask) bound).eval r calls scope x
  | exec bound r calls hask hfree =>
    exact (Pin.everything (survives_of_asks h hask) bound).exec r calls hfree
  | call bound r calls f args hask =>
    exact (Pin.everything (survives_of_asks h hask) bound).call r calls f args
  | enter scope => exact (Pin.Survives.withFrame scope fun _ _ => .pure _)
  | declare v changeable hfree =>
    exact .declareName (fun hhead hmem => hfree hhead (List.mem_singleton.mp hmem)) v changeable
  | assign scope other v => exact .assignName scope other v
  | provide hsource => exact h.provide hsource
  | render bound routine data => exact h.renderTop bound routine data
  | aside hframes => exact fun s hs => hs.of_frames (hframes s)

/-- So it does all that comes later. -/
theorem Later.keeps (h : p.SparedBy e.setting) {s t : Store} (hst : Later e p.place p.name s t)
    (hs : p.Keeps s.heap) : p.Keeps t.heap := by
  induction hst with
  | now => exact hs
  | next _ hact ih => exact hact.survives h _ ih

end Later

/-! ### Constants -/

/-- An act on the heap takes no frame away and leaves all constants. -/
structure LeavesConstants {α : Type} (act : Heap → α × Heap) : Prop where
  size : ∀ g, g.frames.size ≤ (act g).2.frames.size
  constants : ∀ g place name v, g.slot? (.inFrame place name) = some ⟨v, false⟩ →
    (act g).2.slot? (.inFrame place name) = some ⟨v, false⟩

/-- The code of helpers and the sources of values leave all constants: they do not get at the scopes
of functions. -/
structure Setting.LeavesConstants (s : Setting) : Prop where
  codes : ∀ code ∈ s.codes, ∀ args, Stencil.LeavesConstants (code args)
  providers : ∀ make, .custom make ∈ s.hooks.providers → Stencil.LeavesConstants make

/-- An engine that was just created has no such code. -/
theorem leavesConstants_create (cap : Nat) : (Engine.create cap).setting.LeavesConstants :=
  ⟨nofun, nofun⟩

namespace Routine.Pin

/-- Only that the frame is there. -/
def frameAt (place : Nat) (name : String) : Pin :=
  ⟨place, name, fun _ => True, fun _ _ _ _ => trivial⟩

/-- The name is a constant with the value. -/
def constant (place : Nat) (name : String) (v : Value) : Pin where
  place := place
  name := name
  holds found := found = some ⟨v, false⟩
  assigned := by
    rintro _ _ ⟨⟩ hchangeable
    cases hchangeable

variable {s : Setting} (h : s.LeavesConstants) {place : Nat} {name : String}
include h

theorem sparedBy_frameAt : (frameAt place name).SparedBy s where
  codes code hcode args g hg := ⟨hg.lt.trans_le ((h.codes code hcode args).size g), trivial⟩
  providers make hmake g hg := ⟨hg.lt.trans_le ((h.providers make hmake).size g), trivial⟩

theorem sparedBy_constant {v : Value} : (constant place name v).SparedBy s where
  codes code hcode args g hg :=
    ⟨hg.lt.trans_le ((h.codes code hcode args).size g),
      (h.codes code hcode args).constants g place name v hg.holds⟩
  providers make hmake g hg :=
    ⟨hg.lt.trans_le ((h.providers make hmake).size g),
      (h.providers make hmake).constants g place name v hg.holds⟩

end Routine.Pin

section Constants

variable {e : Engine} (he : e.setting.LeavesConstants) {vs : List Value}
  {ask : Service → List Value → Run Value} (hask : Asks e vs ask) {place : Nat} {name : String}
include he hask

/-- Where constants were declared, the last one of a name is in the frame. -/
theorem exists_constant {bound r calls : Nat} {rest : Scope}
    {bindings : List (String × Option Expr)} {s t : Store} {flow : Flow}
    (hplace : place < s.heap.frames.size) (hname : name ∈ bindings.map Prod.fst)
    (hrun : exec bound ⟨ask, r, calls⟩ (.locals place :: rest) (.declare .constant bindings) s
      = .ok flow t) :
    ∃ v, (Pin.constant place name v).Keeps t.heap := by
  cases bound with
  | zero => cases hrun
  | succ bound =>
    induction bindings generalizing s with
    | nil => cases hname
    | cons binding bindings ih =>
      obtain ⟨other, value⟩ := binding
      rw [exec_declare_cons] at hrun
      obtain ⟨v, s₁, hvalue, hfollowing⟩ := exists_of_run_bind_ok hrun
      obtain ⟨_, s₂, hdeclare, hrest⟩ := exists_of_run_bind_ok hfollowing
      have hfirst : place < s₁.heap.frames.size := by
        have hspared : (Pin.frameAt place name).SparedBy e.setting := Pin.sparedBy_frameAt he
        have hkeeps := survives_declaredValue hspared hask bound r calls (.locals place :: rest)
          value s ⟨hplace, trivial⟩
        rw [Run.leaves_ok hvalue] at hkeeps
        exact hkeeps.lt
      have hheap : s₂.heap = s₁.heap.declare (.locals place :: rest) other ⟨v, false⟩ := by
        cases hdeclare
        rfl
      have hsecond : place < s₂.heap.frames.size := by
        rw [hheap]
        exact hfirst.trans_eq (Heap.size_setLocal _ _ _ _).symm
      by_cases hlater : name ∈ bindings.map Prod.fst
      · exact ih hsecond hlater hrest
      · -- This is the last binding of the name, and the others leave it.
        obtain rfl : name = other := by
          rcases List.mem_cons.mp hname with hname | hname
          · exact hname
          · exact absurd hname hlater
        have hdeclared : (Pin.constant place name v).Keeps s₂.heap :=
          ⟨hsecond, hheap ▸ slot?_declare hfirst rest name ⟨v, false⟩⟩
        have hothers : Act e place name (exec (bound + 1) ⟨ask, r, calls⟩ (.locals place :: rest)
            (.declare .constant bindings)) := .exec _ _ _ hask fun _ => hlater
        have hkeeps := hothers.survives (p := Pin.constant place name v)
          (Pin.sparedBy_constant he) s₂ hdeclared
        rw [Run.leaves_ok hrest] at hkeeps
        exact ⟨v, hkeeps⟩

/-- **A constant keeps its value** until its name is declared again in its frame.  In whatever comes
later without that, whether parts of it fail or not, the name is in the frame, every scope in which it
stands for the variable there reads the same value, and every assignment through such a scope fails
and changes nothing.  A declaration of the name in that frame never fails, and gives it another
value. -/
theorem constant_kept {bound r calls : Nat} {rest : Scope}
    {bindings : List (String × Option Expr)} {s t : Store} {flow : Flow}
    (hplace : place < s.heap.frames.size) (hname : name ∈ bindings.map Prod.fst)
    (hrun : exec bound ⟨ask, r, calls⟩ (.locals place :: rest) (.declare .constant bindings) s
      = .ok flow t) :
    ∃ v, ∀ u, Later e place name t u →
      (∀ outer, u.heap.Innermost name (.locals place :: outer) (.inFrame place name))
      ∧ (∀ scope, u.heap.Innermost name scope (.inFrame place name) →
        valueOf scope name u = .ok v u
        ∧ ∀ w, assignName scope name w u = .error (.failed .constant) u)
      ∧ ∀ outer w changeable, ∃ u',
        declareName (.locals place :: outer) name w changeable u = .ok () u'
        ∧ valueOf (.locals place :: outer) name u' = .ok w u' := by
  obtain ⟨v, hv⟩ := exists_constant he hask hplace hname hrun
  refine ⟨v, fun u hu => ?_⟩
  have hkeeps := hu.keeps (p := Pin.constant place name v) (Pin.sparedBy_constant he) hv
  have hslot : u.heap.slot? (.inFrame place name) = some ⟨v, false⟩ := hkeeps.holds
  refine ⟨fun outer => .here rfl (by rw [hslot, Option.isSome_some]), fun scope hscope => ?_,
    fun outer w changeable => ⟨_, rfl, ?_⟩⟩
  · exact ⟨valueOf_found (Heap.find?_of_innermost hscope hslot),
      fun w => assignName_constant hscope hslot rfl⟩
  · have hdeclared := slot?_declare hkeeps.lt outer name ⟨w, changeable⟩
    exact valueOf_found (Heap.find?_of_innermost
      (.here rfl (by rw [hdeclared, Option.isSome_some])) hdeclared)

end Constants

/-- A constant that was declared in a new frame keeps its value when another one is assigned. -/
theorem constant_kept_reassigned :
    let e := Engine.create 1
    let scope : Scope := [.locals 0]
    let around : Surroundings := ⟨e.setting.perform e.setting.includeAlone, 0, 1⟩
    let s : Store := { e.store with heap := e.store.heap.newFrame.2 }
    let t := Run.leaves (exec 2 around scope (.declare .constant [("x", some (.number 1))])) s
    let u := Run.leaves (Routine.eval 2 around scope (.assign none (.name "x") (.number 2))) t
    0 < s.heap.frames.size ∧ "x" ∈ [("x", some (Expr.number 1))].map Prod.fst
    ∧ exec 2 around scope (.declare .constant [("x", some (.number 1))]) s = .ok .onward t
    ∧ ∃ v, valueOf scope "x" t = .ok v t ∧ valueOf scope "x" u = .ok v u := by
  intro e scope around s t u
  have hplace : 0 < s.heap.frames.size := Nat.zero_lt_one
  have hname : "x" ∈ [("x", some (Expr.number 1))].map Prod.fst := List.mem_singleton_self _
  have hask : Asks e [] (e.setting.perform e.setting.includeAlone) := .alone
  have hrun : exec 2 around scope (.declare .constant [("x", some (.number 1))]) s
      = .ok .onward t := rfl
  obtain ⟨v, hv⟩ := constant_kept (leavesConstants_create 1) hask hplace hname hrun
  have hlater : Later e 0 "x" t u := .next .now (.eval 2 0 1 scope _ hask)
  have hreads {w : Store} (hw : Later e 0 "x" t w) : valueOf scope "x" w = .ok v w :=
    ((hv w hw).2.1 scope ((hv w hw).1 [])).1
  exact ⟨hplace, hname, hrun, v, hreads .now, hreads hlater⟩

/-- A constant that is declared again has another value, also in a function that captured it. -/
theorem render_redeclaredConstant :
    ((Engine.create 1).render 1000
      (some "[[ const x = 1; const f = () => x; let x = 2 ]][[= f() ]] [[= x ]]") (.object [])).1
      = .ok "2 2" := by
  decide +kernel

end Stencil
