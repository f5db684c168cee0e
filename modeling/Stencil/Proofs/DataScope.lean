import Stencil.Proofs.Guard
import Stencil.Proofs.Reading.Routine
import Stencil.Proofs.Twins

/-!
# The scope of the data

Every routine that an engine without guard compiles begins in the same way: it opens the data and
declares the output.  What follows in the scope looks up names in the output, the data and the
parameters, in this order, and so may not notice a member of the data.

* `OpensData`, `parse_dataScope` — routines that begin so, and that all do;
* `mentions` — the names that a routine uses in the scope and behind it;
* `runBound_opened` — routines that open data come to the same if the data differ under no name that
  they use.
-/

namespace Stencil

open Routine Routine.Parser Reading Template Likeness

/-! ### How routines begin -/

/-- The statements open the data and declare the output, and go on with others, in the scope and
behind it. -/
def OpensData (body stmts rest : List Stmt) : Prop :=
  body = .within (.name dataName) false
    (.declare .variable [(outputName, some (.text ""))] :: stmts) :: rest

/-- The tokens that declare the output. -/
def outputTokens : List Token :=
  [.name "let", .name outputName, .sign .becomes, .text "", .sign .semicolon].map (onLine 2)

/-- The declaration of the output is read off in front of anything else. -/
theorem statements_output {bound : Nat} (hbound : 5 ≤ bound) (tokens : List Token) (last : Nat) :
    statements (bound + 1) ⟨outputTokens ++ tokens, last⟩
      = (statements bound >>= fun stmts =>
          return .declare .variable [(outputName, some (.text ""))] :: stmts) ⟨tokens, last⟩ := by
  rw [statements]
  refine (bind_ok rfl).trans ?_
  exact bind_ok (gives_statement_output 2 tokens bound hbound last)

/-- What is read behind the declaration of the output, whatever the lines there begin with. -/
theorem exists_of_parse_dataScope {params : List String} {pieces : List Piece} {p : Program}
    {front : List Token} {last : Nat} {rest : List Char}
    (hfront : Lexes 3 ((String.join (pieces.map line)).toList ++ lastLines.toList) front last rest)
    (h : parseProgram params (inDataScope (generate pieces)) = .ok p) :
    ∃ (bound : Nat) (l : Lexed) (stmts : List Stmt) (i : Input) (behind : List Stmt), 7 ≤ bound
      ∧ statements bound ⟨front ++ l.tokens, l.endLine⟩ = .ok (stmts, i)
      ∧ OpensData p.body stmts behind := by
  have hsource : (inDataScope (generate pieces)).toList
      = ("with (" ++ dataName ++ ") \x7b\n" ++ "let " ++ outputName ++ " = \"\";\n").toList
        ++ ((String.join (pieces.map line)).toList ++ lastLines.toList) := by
    rw [inDataScope, generate, lastLines]
    simp only [String.toList_append, List.append_assoc]
  rw [parseProgram, lex, hsource, ((lexes_opening _).append hfront).lexChars_eq] at h
  cases hlex : lexWithin rest.length last [] rest with
  | error e =>
    rw [hlex] at h
    cases h
  | ok l =>
    rw [hlex] at h
    have htokens : (openingTokens ++ front).reverse.reverse ++ l.tokens
        = scopeTokens "with" ++ (outputTokens ++ (front ++ l.tokens)) := by
      rw [List.reverse_reverse, ← List.append_assoc, ← List.append_assoc]
      rfl
    simp only [Except.map, Lexed.behind, htokens, parseTokens] at h
    generalize htail : front ++ l.tokens = tokens at h
    obtain ⟨bound, hbound⟩ : ∃ b,
        callBound (scopeTokens "with" ++ (outputTokens ++ tokens)).length = b + 3 + 6 :=
      ⟨callBound (scopeTokens "with" ++ (outputTokens ++ tokens)).length - 9, by
        unfold callBound; omega⟩
    have hlarge : 2 ≤ bound := by
      unfold callBound at hbound
      omega
    have htop := topStatements_scope (.inl rfl) (bound + 3) (outputTokens ++ tokens) l.endLine
    rw [hbound] at h
    change (topStatements (bound + 3 + 6) _).map _ = _ at h
    rw [htop] at h
    cases hscope : scopeBody (bound + 6) false ⟨outputTokens ++ tokens, l.endLine⟩ with
    | error stop =>
      rw [show ("with" == "strict") = false from rfl, hscope] at h
      cases h
    | ok result =>
      rw [show ("with" == "strict") = false from rfl, hscope] at h
      cases h
      obtain ⟨body, behind, hbody, hrest⟩ := exists_of_bind_ok hscope
      rw [statements_output (show 5 ≤ bound + 5 by omega)] at hbody
      obtain ⟨stmts, i, hread, hstmts⟩ := exists_of_bind_ok hbody
      cases hstmts
      obtain ⟨rest, i, -, hwhole⟩ := exists_of_bind_ok hrest
      cases hwhole
      exact ⟨bound + 5, l, stmts, _, rest, by omega, htail ▸ hread, rfl⟩

/-- **Every source in a data scope** is read as statements that open the data, if it is read at
all. -/
theorem parse_dataScope {params : List String} {pieces : List Piece} {p : Program}
    (h : parseProgram params (inDataScope (generate pieces)) = .ok p) :
    p.params = params ∧ ∃ stmts rest, OpensData p.body stmts rest := by
  obtain ⟨_, _, stmts, _, rest, -, -, hopens⟩ := exists_of_parse_dataScope (.nil 3 _) h
  exact ⟨params_of_parseProgram h, stmts, rest, hopens⟩

theorem OpensData.numbered {p : Program} {stmts rest : List Stmt}
    (h : OpensData p.body stmts rest) :
    ∃ stmts' rest', OpensData p.numbered.body stmts' rest' := by
  obtain ⟨params, body⟩ := p
  obtain rfl : body = _ := h
  exact ⟨_, _, rfl⟩

/-! ### Names behind the start -/

/-- The names that statements use, but for the object that the first of them opens. -/
def namesBehind : List Stmt → List String
  | .within _ _ body :: rest => stmtsNames body ++ stmtsNames rest
  | stmts => stmtsNames stmts

/-- The names that the routine of a template uses behind its start. -/
def Setting.mentions (s : Setting) (template : String) : List String :=
  match parseProgram s.params (s.source template) with
  | .ok program => namesBehind program.numbered.body
  | .error _ => []

/-! ### Running behind the start -/

/-- In paired frames the data are objects for scopes to open.  The frames differ in nothing else. -/
structure HoldData (w : Pairing) (h h' : Heap) (place place' : Nat) : Prop where
  frames : w.frames place place'
  covered : ∀ name, w.covered place name → name = dataName
  data : ∃ object object', w.secrets object object'
    ∧ (h.frame place).get? dataName = some ⟨.object object, true⟩
    ∧ (h'.frame place').get? dataName = some ⟨.object object', true⟩

theorem HoldData.newFrame {w w' : Pairing} {h h' : Heap} {place place' : Nat}
    (hdata : HoldData w h h' place place') (hw : w ≤ w') (hlt : place < h.frames.size)
    (hlt' : place' < h'.frames.size) : HoldData w' h.newFrame.2 h'.newFrame.2 place place' := by
  obtain ⟨object, object', hobjects, hframe, hframe'⟩ := hdata.data
  refine ⟨hw.frames hdata.frames, fun name hname =>
    hdata.covered name (hw.covered hdata.frames hname), object, object', hw.secrets hobjects,
    ?_, ?_⟩
  · rw [Heap.frame_newFrame, if_neg hlt.ne]
    exact hframe
  · rw [Heap.frame_newFrame, if_neg hlt'.ne]
    exact hframe'

theorem started_eq (h : Heap) :
    started h = h.pushFrame (Roster.empty.insert outputName ⟨.text "", true⟩) :=
  h.setLocal_pushFrame .empty outputName ⟨.text "", true⟩

section Opened

variable {hidden : String → Prop} {kept : Store → Store → Prop} {base w : Pairing}
  {ask ask' : Service → List Value → Run Value}
  (hserves : (pairing hidden kept).Serves (pure ()) base (fun _ : Unit => ask) fun _ => ask')
  {t t' : Store} {place place' : Nat}

/-- The scope behind the start of the output shows the same under all names but those of the data and
of hidden members. -/
theorem sees_start {h h' : Heap} (hdata : HoldData w h h' place place') {object object' : Nat}
    (hobjects : w.secrets object object') {inner inner' : Nat} (hinner : w.frames inner inner')
    (hopen : ∀ name, ¬ w.covered inner name) {w' : Pairing} (hw : w ≤ w')
    (hblock : w'.frames h.frames.size h'.frames.size)
    (hclosed : ∀ name, ¬ w'.covered h.frames.size name)
    (hbound : w'.bound h.frames.size outputName) {names : List String}
    (hnames : ∀ name ∈ names, name ≠ dataName ∧ (hidden name → name = outputName)) :
    (pairing hidden kept).Sees w' names (startScope h (.object object) inner place)
      (startScope h' (.object object') inner' place') := by
  refine ⟨.cons (.locals hblock) (.cons (.secret false (hw.secrets hobjects))
    (.cons (.locals (hw.frames hinner)) (.cons (.locals (hw.frames hdata.frames)) .nil))),
    fun name hname => ?_⟩
  obtain ⟨hother, hhidden⟩ := hnames name hname
  by_cases hout : name = outputName
  · exact .bound (hout ▸ hbound)
  · refine .cons ?_ (.cons ?_ (.cons ?_ (.cons ?_ .nil)))
    · rintro ⟨hcovered⟩
      exact hclosed name hcovered
    · rintro (_ | ⟨_, _, hname⟩)
      exact hout (hhidden hname)
    · rintro ⟨hcovered⟩
      exact hopen name (hw.covered hinner hcovered)
    · rintro ⟨hcovered⟩
      exact hother (hdata.covered name (hw.covered hdata.frames hcovered))

/-- Behind the scope of the data, the frames show the same under all names but that of the data. -/
theorem sees_behind {h h' : Heap} (hdata : HoldData w h h' place place') {inner inner' : Nat}
    (hinner : w.frames inner inner') (hopen : ∀ name, ¬ w.covered inner name) {w' : Pairing}
    (hw : w ≤ w') {names : List String} (hnames : ∀ name ∈ names, name ≠ dataName) :
    (pairing hidden kept).Sees w' names [.locals inner, .locals place]
      [.locals inner', .locals place'] := by
  refine ⟨.cons (.locals (hw.frames hinner)) (.cons (.locals (hw.frames hdata.frames)) .nil),
    fun name hname => .cons ?_ (.cons ?_ .nil)⟩
  · rintro ⟨hcovered⟩
    exact hopen name (hw.covered hinner hcovered)
  · rintro ⟨hcovered⟩
    exact hnames name hname (hdata.covered name (hw.covered hdata.frames hcovered))

include hserves in
/-- What follows in the scope comes to the same, if it uses no name under which data differ but that
of the output. -/
theorem executes_opened (hw : base ≤ w) (hs : (pairing hidden kept).stores w t t')
    (hdata : HoldData w t.heap t'.heap place place') {inner inner' : Nat}
    (hinner : w.frames inner inner') (hopen : ∀ name, ¬ w.covered inner name)
    (hempty : t.heap.frame inner = .empty) (hempty' : t'.heap.frame inner' = .empty)
    {stmts : List Stmt}
    (hnames : ∀ name ∈ stmtsNames stmts, name ≠ dataName ∧ (hidden name → name = outputName))
    (bound r calls : Nat) :
    (pairing hidden kept).Outcome w (pairing hidden kept).Flows
      (exec bound ⟨ask, r, calls⟩ [.locals inner, .locals place]
        (.within (.name dataName) false
          (.declare .variable [(outputName, some (.text ""))] :: stmts)) t)
      (exec bound ⟨ask', r, calls⟩ [.locals inner', .locals place']
        (.within (.name dataName) false
          (.declare .variable [(outputName, some (.text ""))] :: stmts)) t') := by
  obtain ⟨object, object', hobjects, hframe, hframe'⟩ := hdata.data
  match bound with
  | 0 =>
    rw [exec, exec]
    exact .endless le_rfl hs trivial
  | 1 =>
    rw [exec, exec, eval, eval]
    exact .endless le_rfl hs trivial
  | 2 =>
    rw [exec, exec, run_bind_ok (eval_data hframe hempty 0),
      run_bind_ok (eval_data hframe' hempty' 0), run_bind_ok (withFrame_eq _ _),
      run_bind_ok (withFrame_eq _ _)]
    obtain ⟨w', hw', -, hp, -⟩ := hs.1.newFrame
    exact .endless hw' ⟨hp, hs.2⟩ trivial
  | bound + 3 =>
    rw [exec_within _ t hframe hempty, exec_within _ t' hframe' hempty', started_eq, started_eq]
    have houtput (name : String) : Option.Rel (PairedBindings hidden w)
        ((Roster.empty.insert outputName ⟨.text "", true⟩).get? name)
        ((Roster.empty.insert outputName ⟨.text "", true⟩).get? name) := by
      rw [Roster.get?_insert]
      split
      · exact .some ⟨.text "", rfl⟩
      · exact .none
    obtain ⟨w', hw', hblock, hp, hclosed, hbound⟩ := hs.1.pushFrame (fun _ => False)
      (· = outputName) (fun name _ => houtput name) fun name hname => by
        rw [hname, Roster.get?_insert, if_pos rfl]
        exact ⟨id, rfl⟩
    have hsees : (pairing hidden kept).Sees w' (stmtsNames stmts) _ _ :=
      sees_start hdata hobjects hinner hopen hw' hblock hclosed (hbound outputName rfl) hnames
    have hrun := (everything_fixed trivial (fun _ => trivial) hserves (bound + 2)).inOrder
      (hw.trans hw') (r := r) rfl hsees calls
    have hstores : (pairing hidden kept).stores w'
        { t with heap := t.heap.pushFrame (Roster.empty.insert outputName ⟨.text "", true⟩) }
        { t' with heap := t'.heap.pushFrame (Roster.empty.insert outputName ⟨.text "", true⟩) } :=
      ⟨hp, hs.2⟩
    exact (hrun.outcome (fun _ => id) hstores).imp hw' fun _ _ _ _ h => h

include hserves in
/-- **Routines that open data** come to the same, if they use no name under which data differ but
that of the output. -/
theorem runBound_opened (hw : base ≤ w) (hs : (pairing hidden kept).stores w t t')
    (hdata : HoldData w t.heap t'.heap place place') {p p' : Program} (hbody : p.body = p'.body)
    {stmts rest : List Stmt} (hopens : OpensData p.body stmts rest)
    (hnames : ∀ name ∈ namesBehind p.body, name ≠ dataName ∧ (hidden name → name = outputName))
    (bound r calls : Nat) :
    (pairing hidden kept).Outcome w (pairing hidden kept).Values
      (p.runBound bound ⟨ask, r, calls⟩ [.locals place] t)
      (p'.runBound bound ⟨ask', r, calls⟩ [.locals place'] t') := by
  obtain ⟨hlt, hlt', -⟩ := hs.1.frames hdata.frames
  rw [OpensData] at hopens
  rw [hopens, namesBehind, stmtsNames] at hnames
  have hstmts (name : String) (hname : name ∈ stmtsNames stmts) := hnames name (by
    simp only [List.mem_append]
    exact .inl (.inr hname))
  have hrest (name : String) (hname : name ∈ stmtsNames rest) := hnames name (by
    simp only [List.mem_append]
    exact .inr hname)
  -- The frame of the statements behind the scope.
  obtain ⟨w₁, hw₁, hlink, hp₁, hopen⟩ := hs.1.newFrame
  have hinner : w₁.frames t.heap.frames.size t'.heap.frames.size := by
    cases hlink with
    | locals h => exact h
  have hstores : (pairing hidden kept).stores w₁ { t with heap := t.heap.newFrame.2 }
      { t' with heap := t'.heap.newFrame.2 } := ⟨hp₁, hs.2⟩
  have hdata₁ := hdata.newFrame hw₁ hlt hlt'
  have hfirst := executes_opened hserves (hw.trans hw₁) hstores hdata₁ hinner hopen
    (by rw [Heap.frame_newFrame, if_pos rfl]) (by rw [Heap.frame_newFrame, if_pos rfl]) hstmts
    bound r calls
  have hbehind {w₂ : Pairing} (hw₂ : w₁ ≤ w₂) :=
    (everything_fixed trivial (fun _ => trivial) hserves bound).inOrder
      (hw.trans (hw₁.trans hw₂)) (r := r) rfl
      (sees_behind hdata₁ hinner hopen hw₂ fun name hname => (hrest name hname).1) calls
  have hflow : (pairing hidden kept).Outcome w₁ (pairing hidden kept).Flows
      (inOrder (exec bound ⟨ask, r, calls⟩ [.locals t.heap.frames.size, .locals place]) p.body
        { t with heap := t.heap.newFrame.2 })
      (inOrder (exec bound ⟨ask', r, calls⟩ [.locals t'.heap.frames.size, .locals place']) p'.body
        { t' with heap := t'.heap.newFrame.2 }) := by
    rw [← hbody, hopens, inOrder, inOrder]
    refine hfirst.bind fun w₂ hw₂ flow flow' u u' hu hflow => ?_
    cases hflow with
    | onward => exact (hbehind hw₂).outcome (fun _ => id) hu
    | leave => exact .ok le_rfl hu .leave
    | skip => exact .ok le_rfl hu .skip
    | giveBack hv => exact .ok le_rfl hu (.giveBack hv)
  rw [Program.runBound, Program.runBound, run_bind_ok (withFrame_eq _ t),
    run_bind_ok (withFrame_eq _ t')]
  refine (hflow.bind fun w₂ _ flow flow' u u' hu hflow => ?_).imp hw₁ fun _ _ _ _ h => h
  cases hflow with
  | giveBack hv => exact .ok le_rfl hu hv
  | onward | leave | skip => exact .ok le_rfl hu .undefined

end Opened

end Stencil
