import Stencil.Proofs.Binding
import Stencil.Proofs.Reading.Running

/-!
# The routine of a tree

A routine binds the data and the function that escapes, opens the data as a scope, begins the output
and runs the statements of the tree.

* `Begun` — the frame of the parameters;
* `sees_started` — what the scope of the first statement sees;
* `givesBack_bodyOf` — the body of the routine gives back what reading the tree gives;
* `runBound_bodyOf` — the whole routine answers that.
-/

namespace Stencil.Reading

open Routine Template

/-! ### Statements in a row -/

theorem inOrder_append (run : Stmt → Run Flow) (ss ts : List Stmt) :
    inOrder run (ss ++ ts) = (inOrder run ss >>= fun flow =>
      match flow with
      | .onward => inOrder run ts
      | flow => pure flow) := by
  induction ss with
  | nil => rfl
  | cons s ss ih =>
    rw [List.cons_append, inOrder, inOrder, bind_assoc]
    congr 1
    funext flow
    cases flow with
    | onward => exact ih
    | _ => rfl

/-! ### The first scope -/

/-- The frame holds the data and the function that escapes, and nothing else. -/
structure Begun (h : Heap) (place : Nat) (data : Value) : Prop where
  /-- The frame is there. -/
  inside : place < h.frames.size
  /-- The data has its name. -/
  data : (h.frame place).get? dataName = some ⟨data, true⟩
  /-- The function that escapes has its name. -/
  escape : ∃ name identity,
    (h.frame place).get? escapeName = some ⟨.native name (.service .escape) identity, true⟩
  /-- Nothing else is there. -/
  others : ∀ name, name ≠ dataName → name ≠ escapeName → (h.frame place).get? name = none

section

variable {h : Heap} {place : Nat} {members : List (String × Json)}

theorem extends_newFrame (h : Heap) : Extends h h.newFrame.2 :=
  ⟨Nat.le_refl _, fun _ _ => rfl, Nat.le_refl _, fun _ _ => rfl⟩

/-- A new frame leaves the frame of the parameters. -/
theorem Begun.newFrame {data : Value} (hb : Begun h place data) :
    Begun h.newFrame.2 place data := by
  have hframe : h.newFrame.2.frame place = h.frame place := by
    rw [Heap.frame_newFrame, if_neg (Nat.ne_of_lt hb.inside)]
  refine ⟨?_, ?_, ?_, ?_⟩
  · have hinside := hb.inside
    rw [Heap.size_newFrame]
    omega
  · rw [hframe]
    exact hb.data
  · rw [hframe]
    exact hb.escape
  · rw [hframe]
    exact hb.others

/-! ### The start of the output -/

/-- The scope behind the start of the output: its frame, the data, and the frames around. -/
def startScope (h : Heap) (data : Value) (inner place : Nat) : Scope :=
  [.locals h.frames.size, openedLink data false, .locals inner, .locals place]

/-- The heap at the start of the output. -/
def started (h : Heap) : Heap := withVariable h outputName ⟨.text "", true⟩

theorem extends_started (h : Heap) : Extends h (started h) :=
  ⟨Nat.le_refl _, fun _ _ => rfl, Nat.le_refl _, fun _ _ => rfl⟩

theorem frame_started (h : Heap) (other : Nat) :
    (started h).frame other
      = if other = h.frames.size then Roster.empty.insert outputName ⟨.text "", true⟩
        else h.frame other :=
  frame_withVariable h outputName _ other

/-- A name other than the output is looked up in the data, and then among the parameters. -/
theorem find?_startScope {data : Value} {inner : Nat} (hplace : place < h.frames.size)
    (hinner : inner < h.frames.size) (hempty : h.frame inner = .empty) {name : String}
    (hname : name ≠ outputName) :
    (started h).find? name (startScope h data inner place)
      = (h.linkValue? name (openedLink data false)).or
          (((h.frame place).get? name).map Binding.value) := by
  have houtput : (started h).linkValue? name (.locals h.frames.size) = none := by
    rw [linkValue?_locals, frame_started, if_pos rfl, Roster.get?_insert, if_neg hname.symm]
    rfl
  have hopened : (started h).linkValue? name (openedLink data false)
      = h.linkValue? name (openedLink data false) := by
    cases data <;> rfl
  have hnone : (started h).linkValue? name (.locals inner) = none := by
    rw [linkValue?_locals, frame_started, if_neg (Nat.ne_of_lt hinner), hempty]
    rfl
  have hparams : (started h).linkValue? name (.locals place)
      = ((h.frame place).get? name).map Binding.value := by
    rw [linkValue?_locals, frame_started, if_neg (Nat.ne_of_lt hplace)]
  rw [startScope, find?_cons_of_none _ houtput]
  cases hv : h.linkValue? name (openedLink data false) with
  | some v =>
    rw [hv] at hopened
    exact find?_cons_of_some _ hopened
  | none =>
    rw [hv] at hopened
    rw [find?_cons_of_none _ hopened, find?_cons_of_none _ hnone, ← hparams]
    rw [Heap.find?]
    rw [List.findSome?_cons]
    cases (started h).linkValue? name (.locals place) <;> rfl

/-- If the data is an object, it is looked up among its members first. -/
theorem find?_started {object inner : Nat} (hplace : place < h.frames.size)
    (hinner : inner < h.frames.size) (hempty : h.frame inner = .empty) {name : String}
    (hname : name ≠ outputName) :
    (started h).find? name (startScope h (.object object) inner place)
      = ((h.members object).get? name).or (((h.frame place).get? name).map Binding.value) :=
  find?_startScope hplace hinner hempty hname

/-- Behind its start, the output is empty. -/
theorem outputs_started {data : Value} {inner : Nat} (hplace : place < h.frames.size)
    (hinner : inner < h.frames.size) :
    Outputs (started h) (startScope h data inner place) h.frames.size "" := by
  refine ⟨?_, ?_, ?_⟩
  · have hholds : (started h).holds outputName (.locals h.frames.size) = true := by
      show (((started h).frame h.frames.size).get? outputName).isSome = true
      rw [frame_started, if_pos rfl, Roster.get?_insert, if_pos rfl]
      rfl
    exact holder?_cons_of_true _ hholds
  · rw [frame_started, if_pos rfl, Roster.get?_insert, if_pos rfl]
  · intro other hother
    have hopened : Link.locals other ≠ openedLink data false := by
      cases data <;> exact nofun
    rw [started, size_withVariable]
    simp only [startScope, List.mem_cons, List.not_mem_nil, or_false, Link.locals.injEq, hopened,
      false_or] at hother
    omega

/-- Behind the start of the output, names stand for the members of the data. -/
theorem sees_started {data : Value} (hb : Begun h place data)
    (hdata : Means h data (some (.object members)))
    (hkey : (Roster.ofList members).get? escapeName = none) {inner : Nat}
    (hinner : inner < h.frames.size) (hempty : h.frame inner = .empty) :
    Sees (started h) (startScope h data inner place) (Roster.ofList members).get? h.frames.size
      "" := by
  obtain ⟨object, vs, rfl, -, heq, hvs⟩ := hdata
  have hmembers := corresponds_ofList hvs
  have hfind {name : String} (hname : name ≠ outputName) :
      (started h).find? name (startScope h (.object object) inner place)
        = ((Roster.ofList vs).get? name).or (((h.frame place).get? name).map Binding.value) := by
    rw [find?_started hb.inside hinner hempty hname, heq]
  have houtputs : Outputs (started h) (startScope h (.object object) inner place) h.frames.size
      "" := outputs_started hb.inside hinner
  refine ⟨?_, ?_, ?_, houtputs.holder, houtputs.output, rfl, houtputs.inside⟩
  · intro x j hx
    rw [hfind x.ne_output]
    rcases hmembers x.name with ⟨-, habsent⟩ | ⟨v, j', hv, hj, hholds⟩
    · cases habsent.symm.trans hx
    · cases hj.symm.trans hx
      have hmeans : Means h v (some j) := hholds
      rw [hv]
      exact ⟨v, rfl, hmeans.extend (extends_started h)⟩
  · intro x hx
    rw [hfind x.ne_output]
    rcases hmembers x.name with ⟨hv, -⟩ | ⟨v, j', -, hj, -⟩
    · rw [hv, hb.others _ x.ne_data x.ne_escape]
      rfl
    · cases hj.symm.trans hx
  · obtain ⟨name, identity, hescape⟩ := hb.escape
    have houtput : escapeName ≠ outputName := by decide
    refine ⟨name, identity, ?_⟩
    rw [hfind houtput]
    rcases hmembers escapeName with ⟨hv, -⟩ | ⟨v, j', -, hj, -⟩
    · rw [hv, hescape]
      rfl
    · cases hj.symm.trans hkey

/-! ### The whole routine -/

/-- The name of the data has the data. -/
theorem eval_data {around : Surroundings} {store : Store} {data : Value} {inner : Nat}
    (hdata : (store.heap.frame place).get? dataName = some ⟨data, true⟩)
    (hempty : store.heap.frame inner = .empty) (bound : Nat) :
    eval (bound + 1) around [.locals inner, .locals place] (.name dataName) store
      = .ok data store := by
  have hnone : store.heap.linkValue? dataName (.locals inner) = none := by
    rw [linkValue?_locals, hempty]
    rfl
  have hsome : store.heap.linkValue? dataName (.locals place) = some data := by
    rw [linkValue?_locals, hdata]
    rfl
  have hfind : store.heap.find? dataName [.locals inner, .locals place] = some data := by
    rw [find?_cons_of_none _ hnone, find?_cons_of_some _ hsome]
  rw [eval]
  exact valueOf_found hfind

/-- Opening the data and beginning the output lead to the statements behind. -/
theorem exec_within (around : Surroundings) (store : Store) {data : Value} {inner : Nat}
    (hdata : (store.heap.frame place).get? dataName = some ⟨data, true⟩)
    (hempty : store.heap.frame inner = .empty) (bound : Nat) (stmts : List Stmt) :
    exec (bound + 3) around [.locals inner, .locals place]
        (.within (.name dataName) false
          (.declare .variable [(outputName, some (.text ""))] :: stmts)) store
      = inOrder (exec (bound + 2) around (startScope store.heap data inner place)) stmts
          { store with heap := started store.heap } := by
  have hdeclare : exec (bound + 2) around (startScope store.heap data inner place)
      (.declare .variable [(outputName, some (.text ""))])
      { store with heap := store.heap.newFrame.2 }
      = .ok .onward { store with heap := started store.heap } := by
    rw [exec]
    rfl
  rw [exec, run_bind_ok (eval_data hdata hempty (bound + 1)), run_bind_ok (withFrame_eq _ _),
    inOrder]
  exact run_bind_ok hdeclare

/-- The output is given back. -/
theorem exec_giveBack (around : Surroundings) (store : Store) {scope : Scope} {o : Nat}
    {out : String} (hs : Outputs store.heap scope o out) (bound : Nat) :
    exec (bound + 2) around scope (.giveBack (some (.name outputName))) store
      = .ok (.giveBack (.text out)) store := by
  rw [exec]
  exact (run_bind_ok (eval_output around hs (Nat.le_add_left 1 bound))).trans rfl

/-- The statements give back the text of a reading, or fail as it fails. -/
def GivesBack (run : Run Flow) (store : Store) : Except Failure String → Prop
  | .ok s => ∃ store', run store = .ok (.giveBack (.text s)) store'
  | .error f => ∃ store', run store = .error (.failed f) store'

/-- Behind the statements of a tree, the output is what reading the tree gives. -/
theorem givesBack_stmtsOf (ns : List (Node (List Char))) {around : Surroundings}
    (ha : Escapes around) {scope : Scope} {names : Names} {o : Nat} (store : Store)
    (hs : Sees store.heap scope names o "") {bound : Nat} (hbound : stepsOf ns ≤ bound + 2) :
    GivesBack
      (inOrder (exec (bound + 2) around scope)
        (stmtsOf ns ++ [.giveBack (some (.name outputName))]))
      store (readNodes id names ns) := by
  have htree := adds_stmtsOf ns ha hs hbound
  rw [inOrder_append]
  cases hread : readNodes id names ns with
  | error f =>
    rw [hread] at htree
    obtain ⟨store', hfail⟩ := htree
    exact ⟨store', run_bind_error hfail⟩
  | ok s =>
    rw [hread] at htree
    obtain ⟨heap, hok, hwrites⟩ := htree
    rw [String.empty_append] at hwrites
    have hsees := hs.writes hwrites
    have hgive := exec_giveBack around { store with heap := heap } hsees.outputs bound
    refine ⟨{ store with heap := heap }, ?_⟩
    rw [run_bind_ok hok]
    dsimp only
    rw [inOrder, run_bind_ok hgive]
    rfl

/-- The body of the routine of a tree gives back what reading the tree gives. -/
theorem givesBack_bodyOf (ns : List (Node (List Char))) {around : Surroundings}
    (ha : Escapes around) (store : Store) {data : Value} (hb : Begun store.heap place data)
    (hdata : Means store.heap data (some (.object members)))
    (hkey : (Roster.ofList members).get? escapeName = none) {inner : Nat}
    (hinner : inner < store.heap.frames.size) (hempty : store.heap.frame inner = .empty)
    {bound : Nat} (hbound : stepsOf ns ≤ bound + 2) :
    GivesBack (inOrder (exec (bound + 3) around [.locals inner, .locals place]) (bodyOf ns)) store
      (readNodes id (Roster.ofList members).get? ns) := by
  have hwithin := exec_within around store hb.data hempty bound
    (stmtsOf ns ++ [.giveBack (some (.name outputName))])
  have hsees := sees_started hb hdata hkey hinner hempty
  have htree := givesBack_stmtsOf ns ha { store with heap := started store.heap } hsees hbound
  rw [bodyOf, inOrder]
  generalize readNodes id (Roster.ofList members).get? ns = r at htree ⊢
  cases r with
  | error f =>
    obtain ⟨store', hfail⟩ := htree
    exact ⟨store', run_bind_error (hwithin.trans hfail)⟩
  | ok s =>
    obtain ⟨store', hok⟩ := htree
    exact ⟨store', (run_bind_ok (hwithin.trans hok)).trans rfl⟩

/-- What a routine answers whose text is that of a reading. -/
def Answers (run : Run String) (store : Store) : Except Failure String → Prop
  | .ok s => ∃ store', run store = .ok s store'
  | .error f => ∃ store', run store = .error (.failed f) store'

/-- The routine of a tree gives back what reading the tree gives. -/
theorem runBound_bodyOf (ns : List (Node (List Char))) (params : List String)
    {around : Surroundings} (ha : Escapes around) (store : Store) {data : Value}
    (hb : Begun store.heap place data) (hdata : Means store.heap data (some (.object members)))
    (hkey : (Roster.ofList members).get? escapeName = none) {bound : Nat}
    (hbound : stepsOf ns + 3 ≤ bound) :
    Answers (Program.runBound ⟨params, bodyOf ns⟩ bound around [.locals place] >>= Run.textOf) store
      (readNodes id (Roster.ofList members).get? ns) := by
  obtain ⟨bound, rfl⟩ : ∃ b, bound = b + 3 := ⟨bound - 3, by omega⟩
  have hsteps : stepsOf ns ≤ bound + 2 := by omega
  have hempty : store.heap.newFrame.2.frame store.heap.frames.size = .empty := by
    rw [Heap.frame_newFrame, if_pos rfl]
  have hinner : store.heap.frames.size < store.heap.newFrame.2.frames.size := by
    rw [Heap.size_newFrame]
    omega
  have hbody := givesBack_bodyOf ns ha { store with heap := store.heap.newFrame.2 } hb.newFrame
    (hdata.extend (extends_newFrame store.heap)) hkey hinner hempty hsteps
  have hrun : (Program.runBound ⟨params, bodyOf ns⟩ (bound + 3) around [.locals place]) store
      = (inOrder (exec (bound + 3) around [.locals store.heap.frames.size, .locals place])
          (bodyOf ns) >>= fun flow => pure flow.result)
          { store with heap := store.heap.newFrame.2 } := by
    rw [Program.runBound]
    exact run_bind_ok (withFrame_eq _ _)
  generalize readNodes id (Roster.ofList members).get? ns = r at hbody ⊢
  cases r with
  | error f =>
    obtain ⟨store', hfail⟩ := hbody
    exact ⟨store', run_bind_error (hrun.trans (run_bind_error hfail))⟩
  | ok s =>
    obtain ⟨store', hok⟩ := hbody
    refine ⟨store', ?_⟩
    rw [run_bind_ok (hrun.trans (run_bind_ok hok))]
    show Run.finite (store'.heap.display (.text s)) _ = _
    rw [display_text]
    rfl

end

end Stencil.Reading
