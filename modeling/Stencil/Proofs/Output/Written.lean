import Stencil.Proofs.Output.Accounts
import Stencil.Proofs.Reading.Routine

/-!
# The output is what was written

The output is a variable like any other, which a routine could declare again, or give another value.
As long as a routine only adds to it, the output is the text of what the record says was written:
what was added, but for what was written and lost while something else was computed to be added.

* `Expr.leavesOutput`, `Stmt.leavesOutput` — nothing but additions changes the output;
* `IsWritten` — the output is the text of a record;
* `written` — the account that says so;
* `silent`, `IsSilent.declare` — the account of what comes before, up to where the output is
  declared.
-/

namespace Stencil.Routine

open Reading Template

/-! ### Leaving the output alone -/

/-- Whether the expression itself does no more to the output than to add to it. -/
def Expr.leavesOutput : Expr → Bool
  | .assign op (.name s) _ => s != outputName || op == some .add
  | .update _ _ (.name s) => s != outputName
  | .arrow _ params _ => params.all (· != outputName)
  | _ => true

/-- Whether the statement itself declares no other output. -/
def Stmt.leavesOutput : Stmt → Bool
  | .declare _ bindings => bindings.all (·.1 != outputName)
  | .each _ _ name _ _ => name != outputName
  | _ => true

/-- Numbering keeps the names that are declared. -/
theorem names_numberedBindings (bindings : List (String × Option Expr)) (n : Nat) :
    (numberedBindings bindings n).1.map Prod.fst = bindings.map Prod.fst := by
  induction bindings generalizing n with
  | nil => rfl
  | cons b bindings ih =>
    obtain ⟨name, value⟩ := b
    cases value with
    | none => exact congrArg (name :: ·) (ih n)
    | some e => exact congrArg (name :: ·) (ih _)

theorem unnumbered_leavesOutput : Unnumbered Expr.leavesOutput Stmt.leavesOutput where
  expr e n := by
    cases e with
    | assign op target value => cases target <;> rfl
    | update up leading target => cases target <;> rfl
    | _ => rfl
  stmt s n := by
    cases s with
    | declare kind bindings =>
      have hall (bs : List (String × Option Expr)) :
          (Stmt.declare kind bs).leavesOutput = (bs.map Prod.fst).all (· != outputName) := by
        rw [Stmt.leavesOutput, List.all_map]
        rfl
      show (Stmt.declare kind (numberedBindings bindings n).1).leavesOutput = _
      rw [hall, hall, names_numberedBindings]
    | branch test yes no => cases no <;> rfl
    | loop init test update body =>
      rw [Stmt.numbered_loop]
      rfl
    | giveBack value => cases value <;> rfl
    | _ => rfl

/-! ### The text of a record -/

/-- The output in the frame at a place is the text of the record, which begins in a given way, and
no other frame that is new since a heap has an output. -/
structure IsWritten (start : Heap) (place : Nat) (first record : List String) (h : Heap) :
    Prop where
  begins : first <+: record
  output : (h.frame place).get? outputName = some ⟨.text (String.join record), true⟩
  others : ∀ other, start.frames.size ≤ other → other ≠ place →
    (h.frame other).get? outputName = none

namespace IsWritten

variable {start : Heap} {place : Nat} {first record before : List String} {g h : Heap}

/-- The frame of the output is there. -/
theorem inside (hw : IsWritten start place first record h) : place < h.frames.size := by
  refine Nat.lt_of_not_le fun hle => ?_
  have hout := hw.output
  rw [Heap.frame, Array.getD_eq_getD_getElem?, Array.getElem?_eq_none hle] at hout
  cases hout

theorem aside (haside : g.Aside h) (hw : IsWritten start place first record g) :
    IsWritten start place first record h := by
  refine ⟨hw.begins, ?_, fun other hother hne => ?_⟩
  · rw [haside.frame_eq]
    exact hw.output
  · rw [haside.frame_eq]
    exact hw.others other hother hne

theorem newFrame (hw : IsWritten start place first record h) :
    IsWritten start place first record h.newFrame.2 := by
  refine ⟨hw.begins, ?_, fun other hother hne => ?_⟩
  · rw [Heap.frame_newFrame, if_neg hw.inside.ne]
    exact hw.output
  · rw [Heap.frame_newFrame]
    split
    · rfl
    · exact hw.others other hother hne

/-- Another variable is declared or assigned. -/
theorem setLocal {name : String} (hname : name ≠ outputName) {b : Binding} {other : Nat}
    (hw : IsWritten start place first record h) :
    IsWritten start place first record (h.setLocal other name b) := by
  have hsame (p : Nat) :
      ((h.setLocal other name b).frame p).get? outputName = (h.frame p).get? outputName := by
    rcases Heap.frame_setLocal_cases h other p name b with heq | ⟨rfl, heq⟩
    · rw [heq]
    · rw [heq, Roster.get?_insert, if_neg hname]
  refine ⟨hw.begins, (hsame place).trans hw.output, fun p hp hne => ?_⟩
  exact (hsame p).trans (hw.others p hp hne)

/-- A piece is added to the output. -/
theorem write (hbefore : first <+: before) (hw : IsWritten start place first record h)
    (piece : String) :
    IsWritten start place first (before ++ [piece])
      (h.setLocal place outputName ⟨.text (String.join before ++ piece), true⟩) := by
  refine ⟨hbefore.trans (List.prefix_append _ _), ?_, fun other hother hne => ?_⟩
  · rw [Heap.frame_setLocal h place outputName _ hw.inside, if_pos rfl, Roster.get?_insert,
      if_pos rfl, String.join_append, String.join_cons, String.join_nil, String.append_empty]
  · rw [Heap.frame_setLocal h other outputName _ hw.inside, if_neg hne.symm]
    exact hw.others other hother hne

/-- A new frame that has an output is the one of the output. -/
theorem eq_of_holds (hw : IsWritten start place first record h) {other : Nat}
    (hother : start.frames.size ≤ other) (hholds : h.holds outputName (.locals other) = true) :
    other = place := by
  by_contra hne
  have hholds : ((h.frame other).get? outputName).isSome = true := hholds
  rw [hw.others other hother hne] at hholds
  cases hholds

end IsWritten

/-! ### The account -/

section Written

variable {start : Heap} {place : Nat} {first : List String}

/-- What is new since a heap, and no function that asks for anything but to escape. -/
def writtenRealm (start : Heap) : Realm where
  arrays place := start.arrays.size ≤ place
  objects place := start.objects.size ≤ place
  frames place := start.frames.size ≤ place
  natives _ _ code := ∀ s, code = .service s → s = .escape
  exprs _ := Expr.leavesOutput
  stmts _ := Stmt.leavesOutput

/-- Nothing is kept at the places that are free. -/
theorem keeps_writtenRealm (start : Heap) : (writtenRealm start).Keeps start where
  free_arrays _ hplace := hplace
  free_objects _ hplace := hplace
  free_frames _ hplace := hplace
  items place hplace v hv := by
    rw [Heap.items, Array.getD_eq_getD_getElem?, Array.getElem?_eq_none hplace] at hv
    cases hv
  members place hplace e he := by
    rw [Heap.members, Array.getD_eq_getD_getElem?, Array.getElem?_eq_none hplace] at he
    cases he
  bindings place hplace b hb := by
    rw [Heap.frame, Array.getD_eq_getD_getElem?, Array.getElem?_eq_none hplace] at hb
    cases hb

/-- The output that was read before something was computed is the one that is written to
afterwards: no scope has come to name another one. -/
theorem IsWritten.find?_eq {before record : List String} {g h : Heap} {scope : Scope}
    (hscope : ∀ l ∈ scope, (writtenRealm start).HasLink l)
    (hbefore : IsWritten start place first before g)
    (hrecord : IsWritten start place first record h) (hgrows : g.Grows h) {other : Nat}
    (hholder : h.holder? outputName scope = some (.locals other)) :
    g.find? outputName scope = some (.text (String.join before)) := by
  induction scope with
  | nil => cases hholder
  | cons l scope ih =>
    obtain ⟨hl, hscope⟩ := List.forall_mem_cons.mp hscope
    cases hholds : h.holds outputName l with
    | true =>
      rw [holder?_cons_of_true scope hholds] at hholder
      cases hholder
      obtain rfl := hrecord.eq_of_holds hl hholds
      refine find?_cons_of_some scope ?_
      rw [linkValue?_locals, hbefore.output]
      rfl
    | false =>
      rw [holder?_cons_of_false scope hholds] at hholder
      rw [find?_cons_of_none scope ?_]
      · exact ih hscope hholder
      cases l with
      | locals p =>
        have hne : p ≠ place := by
          rintro rfl
          have hheld : ((h.frame p).get? outputName).isSome = false := hholds
          rw [hrecord.output] at hheld
          cases hheld
        rw [linkValue?_locals, hbefore.others p hl hne]
        rfl
      | members object guarded =>
        cases object with
        | none => rfl
        | some p =>
          refine Option.eq_none_iff_forall_ne_some.mpr fun v hv => ?_
          have hmember : (g.members p).contains outputName = true :=
            Option.isSome_iff_exists.mpr ⟨v, hv⟩
          have hmember := hgrows p outputName hmember
          exact Bool.false_ne_true (hholds.symm.trans hmember)

/-- The account of a routine that leaves the output alone: it is the text of the record. -/
def written (start : Heap) (place : Nat) (first : List String) : Account where
  toRealm := writtenRealm start
  builtins := nofun
  Holds := IsWritten start place first
  names name := name ≠ outputName
  assigned {r op name value} h := by
    change (name != outputName || op == some .add) = true at h
    rw [Bool.or_eq_true, bne_iff_ne, beq_iff_eq] at h
    by_cases hname : name = outputName
    · exact .inr ⟨h.resolve_left fun hne => hne hname, hname⟩
    · exact .inl hname
  updated {r up leading name} h := bne_iff_ne.mp (show (name != outputName) = true from h)
  params {r site params body} h name hname :=
    bne_iff_ne.mp (List.all_eq_true.mp (show params.all (· != outputName) = true from h) name hname)
  declared h b hb := bne_iff_ne.mp (List.all_eq_true.mp h b hb)
  visited h := bne_iff_ne.mp h
  aside := IsWritten.aside
  newFrame := IsWritten.newFrame
  setLocal hname hw := hw.setLocal hname
  writes {scope before record g h other old operand v piece} hscope hbefore hrecord hgrows hfound
      hsum hpiece hholder := by
    have hholds : h.holds outputName (.locals other) = true := List.find?_some hholder
    obtain rfl := hrecord.eq_of_holds (hscope _ (Heap.mem_of_holder? hholder)) hholds
    cases hfound.symm.trans (hbefore.find?_eq hscope hrecord hgrows hholder)
    cases hsum.symm.trans (Reading.sum_text hpiece _)
    exact hrecord.write hbefore.begins piece

end Written

/-! ### Before the output is declared -/

/-- Nothing was written, and no frame that is new since a heap has an output. -/
structure IsSilent (start : Heap) (record : List String) (h : Heap) : Prop where
  nothing : record = []
  unknown : ∀ other, start.frames.size ≤ other → (h.frame other).get? outputName = none

variable {start : Heap}

/-- The account of a routine that has no output yet. -/
def silent (start : Heap) : Account where
  toRealm := writtenRealm start
  builtins := nofun
  Holds := IsSilent start
  names name := name ≠ outputName
  assigned := (written start 0 []).assigned
  updated := (written start 0 []).updated
  params := (written start 0 []).params
  declared := (written start 0 []).declared
  visited := (written start 0 []).visited
  aside haside hsilent := ⟨hsilent.nothing, fun other hother => by
    rw [haside.frame_eq]
    exact hsilent.unknown other hother⟩
  newFrame hsilent := ⟨hsilent.nothing, fun other hother => by
    rw [Heap.frame_newFrame]
    split
    · rfl
    · exact hsilent.unknown other hother⟩
  setLocal {record h place name b} hname hsilent := ⟨hsilent.nothing, fun other hother => by
    rcases Heap.frame_setLocal_cases h place other name b with heq | ⟨rfl, heq⟩
    · rw [heq]
      exact hsilent.unknown other hother
    · rw [heq, Roster.get?_insert, if_neg hname]
      exact hsilent.unknown place hother⟩
  writes hscope _ hsilent _ _ _ _ hholder := by
    -- There is nothing to write to.
    have hholds := List.find?_some hholder
    change Option.isSome _ = true at hholds
    rw [hsilent.unknown _ (hscope _ (Heap.mem_of_holder? hholder))] at hholds
    cases hholds

/-- The output is declared in a frame of its own. -/
theorem IsSilent.declare {record : List String} {g : Heap} (hsilent : IsSilent start record g) :
    IsWritten start g.frames.size [] record (started g) := by
  obtain ⟨rfl, hunknown⟩ := hsilent
  refine ⟨List.nil_prefix, ?_, fun other hother hne => ?_⟩
  · rw [frame_started, if_pos rfl, Roster.get?_insert, if_pos rfl]
    rfl
  · rw [frame_started, if_neg hne]
    exact hunknown other hother

/-- A frame with the output in front of a scope is where the output is found. -/
theorem IsWritten.holder? {place : Nat} {first record : List String} {h : Heap}
    (hw : IsWritten start place first record h) (scope : Scope) :
    h.holder? outputName (.locals place :: scope) = some (.locals place) := by
  refine holder?_cons_of_true scope ?_
  show ((h.frame place).get? outputName).isSome = true
  rw [hw.output]
  rfl

end Stencil.Routine
