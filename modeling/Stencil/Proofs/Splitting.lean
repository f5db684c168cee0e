import Stencil.Proofs.Calling
import Stencil.Proofs.Marks
import Stencil.Proofs.Reading.PageRun

/-!
# Splitting, joining and replacing

A text is split at the occurrences of a separator that are found from left to right, none of them
overlapping.  The parts with the separator between them are the text again, no part holds the
separator, and with another text between them they are what replacing each occurrence gives.

* `PartedAt` — how a text falls apart at its separators, one occurrence after the other;
* `partedAt_pieces` — splitting takes it apart like that;
* `PartedAt.not_infix`, `PartedAt.replaceEach_eq` — the parts hold no separator, and with another
  text between them they are what replacing gives;
* `asked`, `eval_asked` — expressions that ask a value for something;
* `callMethod_split`, `callMethod_join`, `callMethod_replaceAll` — what texts and arrays answer;
* `eval_split_join` — the main theorem.
-/

namespace Stencil.Text

/-! ### Parts of a text -/

/-- The parts between the occurrences of a separator: each part ends where the leftmost occurrence
begins, and the last one has none. -/
inductive PartedAt (separator : List Char) : List Char → List (List Char) → Prop where
  | last {cs : List Char} (h : cut separator cs = none) : PartedAt separator cs [cs]
  | front {cs part rest : List Char} {parts : List (List Char)}
    (h : cut separator cs = some (part, rest)) (hrest : PartedAt separator rest parts) :
    PartedAt separator cs (part :: parts)

/-- Behind an occurrence less is left than there was. -/
theorem length_lt_of_cut {separator cs part rest : List Char} (hne : separator ≠ [])
    (h : cut separator cs = some (part, rest)) : rest.length < cs.length := by
  have hlength := congrArg List.length (eq_of_cut h)
  have hpos := List.length_pos_iff.mpr hne
  simp only [List.length_append] at hlength
  omega

/-- Splitting takes a text apart at its separators. -/
theorem partedAt_pieces {separator : List Char} (hne : separator ≠ []) (cs : List Char) :
    PartedAt separator cs (pieces separator cs) := by
  suffices ∀ bound cs, cs.length ≤ bound →
      PartedAt separator cs (piecesWithin separator bound cs) from this cs.length cs le_rfl
  intro bound
  induction bound with
  | zero =>
    intro cs hbound
    obtain rfl := List.length_eq_zero_iff.mp (Nat.le_zero.mp hbound)
    refine .last (cut_eq_none_iff.mpr fun i hprefix => hne ?_)
    rwa [List.drop_nil, List.prefix_nil] at hprefix
  | succ bound ih =>
    intro cs hbound
    rw [piecesWithin]
    cases hcut : cut separator cs with
    | none => exact .last hcut
    | some parts =>
      obtain ⟨part, rest⟩ := parts
      have hlength := length_lt_of_cut hne hcut
      exact .front hcut (ih rest (by omega))

namespace PartedAt

variable {separator cs : List Char} {parts : List (List Char)}

theorem ne_nil (h : PartedAt separator cs parts) : parts ≠ [] := by
  cases h <;> exact List.cons_ne_nil _ _

/-- No part holds the separator. -/
theorem not_infix (hne : separator ≠ []) (h : PartedAt separator cs parts) :
    ∀ part ∈ parts, ¬ separator <:+: part := by
  -- An occurrence in a part stands at one of the places that the cut has passed over.
  have hoccurs {cs : List Char} (hinside : separator <:+: cs) :
      ∃ i, i < cs.length ∧ separator <+: cs.drop i := by
    obtain ⟨front, back, rfl⟩ := hinside
    have hpos := List.length_pos_iff.mpr hne
    refine ⟨front.length, by simp only [List.length_append]; omega, ?_⟩
    rw [List.append_assoc, List.drop_left]
    exact List.prefix_append separator back
  induction h with
  | last hcut =>
    refine List.forall_mem_singleton.mpr fun hinside => ?_
    obtain ⟨i, -, hprefix⟩ := hoccurs hinside
    exact cut_eq_none_iff.mp hcut i hprefix
  | front hcut _ ih =>
    refine List.forall_mem_cons.mpr ⟨fun hinside => ?_, ih⟩
    obtain ⟨i, hi, hprefix⟩ := hoccurs hinside
    obtain ⟨rfl, hleft⟩ := cut_eq_some_iff.mp hcut
    refine hleft i hi ?_
    rw [List.drop_append_of_le_length (Nat.le_of_lt hi)]
    exact hprefix.trans (List.prefix_append _ _)

/-- A first part, with something between it and the others. -/
theorem intercalate_front (h : PartedAt separator cs parts) (between part : List Char) :
    between.intercalate (part :: parts) = part ++ (between ++ between.intercalate parts) := by
  obtain ⟨first, others, rfl⟩ := List.exists_cons_of_ne_nil h.ne_nil
  simp [List.intercalate]

end PartedAt

/-! ### Replacing -/

section Replace

variable {needle : List Char} (hne : needle ≠ [])
include hne

theorem length_lt_of_occurrence? (cs : List Char) (u : Unit) (rest : List Char)
    (h : occurrence? needle cs = some (u, rest)) : rest.length < cs.length := by
  obtain ⟨rest', hstrip, heq⟩ := Option.map_eq_some_iff.mp h
  cases heq
  have hlength := congrArg List.length (eq_of_stripFront hstrip)
  have hpos := List.length_pos_iff.mpr hne
  rw [List.length_append] at hlength
  omega

omit hne in
/-- Where the needle does not occur, nothing is replaced. -/
theorem replaceMarks_of_cut_none (new : List Char) {cs : List Char} (h : cut needle cs = none) :
    replaceMarks (occurrence? needle) (fun _ => new) cs = cs := by
  induction cs with
  | nil => rfl
  | cons c cs ih =>
    have hstrip : stripFront needle (c :: cs) = none :=
      stripFront_eq_none_iff.mpr (cut_eq_none_iff.mp h 0)
    rw [cut_cons_of_stripFront hstrip, Option.map_eq_none_iff] at h
    rw [replaceMarks_cons_of_none (by rw [occurrence?, hstrip]; rfl), ih h]

/-- The leftmost occurrence is the first one that is replaced. -/
theorem replaceMarks_of_cut_some (new : List Char) {cs front rest : List Char}
    (h : cut needle cs = some (front, rest)) :
    replaceMarks (occurrence? needle) (fun _ => new) cs
      = front ++ (new ++ replaceMarks (occurrence? needle) (fun _ => new) rest) := by
  have hfound {cs rest : List Char} (hstrip : stripFront needle cs = some rest) :
      replaceMarks (occurrence? needle) (fun _ => new) cs
        = new ++ replaceMarks (occurrence? needle) (fun _ => new) rest :=
    replaceMarks_of_some (length_lt_of_occurrence? hne) (by rw [occurrence?, hstrip]; rfl) _
  induction cs generalizing front with
  | nil =>
    have hnil := List.append_eq_nil_iff.mp (eq_of_cut h).symm
    exact absurd (List.append_eq_nil_iff.mp hnil.1).2 hne
  | cons c cs ih =>
    cases hstrip : stripFront needle (c :: cs) with
    | some tail =>
      rw [cut_of_stripFront hstrip] at h
      cases h
      exact hfound hstrip
    | none =>
      rw [cut_cons_of_stripFront hstrip, Option.map_eq_some_iff] at h
      obtain ⟨⟨front', rest'⟩, hcut, heq⟩ := h
      cases heq
      rw [replaceMarks_cons_of_none (by rw [occurrence?, hstrip]; rfl), ih hcut]
      rfl

/-- The parts with a text between them are what replacing each occurrence by it gives. -/
theorem PartedAt.replaceEach_eq {cs : List Char} {parts : List (List Char)}
    (h : PartedAt needle cs parts) (new : List Char) :
    replaceEach needle new cs = new.intercalate parts := by
  have hempty : needle.isEmpty = false := List.isEmpty_eq_false_iff.mpr hne
  rw [replaceEach, hempty, if_neg Bool.false_ne_true]
  induction h with
  | last hcut =>
    rw [replaceMarks_of_cut_none new hcut]
    simp [List.intercalate]
  | front hcut hrest ih =>
    rw [replaceMarks_of_cut_some hne new hcut, ih, hrest.intercalate_front]

end Replace

end Stencil.Text

namespace Stencil.Routine

open Text
open Reading (textOf_text)

/-! ### What texts and arrays answer -/

/-- The expression that asks a value for something. -/
def asked (receiver : Expr) (name : String) (args : List Expr) : Expr :=
  .call (.member receiver name false) args false

section Asked

variable {around : Surroundings} {scope : Scope} {bound : Nat}

/-- The receiver is evaluated first, then the arguments, and then it is asked. -/
theorem eval_asked {receiver : Expr} {args : List Expr} {r : Value} {vs : List Value}
    {s₀ s t : Store} (hreceiver : eval bound around scope receiver s₀ = .ok r s)
    (hr : r.isNullish = false) (hargs : args.mapM (eval bound around scope) s = .ok vs t)
    (name : String) :
    eval (bound + 1) around scope (asked receiver name args) s₀
      = callMethod (callValue bound around) r name vs t :=
  (eval_call_selection (.member name false hreceiver) hr args false).trans (run_bind_ok hargs)

theorem mapM_eval_text (texts : List String) (store : Store) :
    (texts.map Expr.text).mapM (eval (bound + 1) around scope) store
      = .ok (texts.map Value.text) store := by
  induction texts with
  | nil => rfl
  | cons text texts ih =>
    rw [List.map_cons, List.mapM_cons]
    exact (run_bind_ok rfl).trans ((run_bind_ok ih).trans rfl)

/-- A text is asked with texts. -/
theorem eval_asked_text (s name : String) (args : List String) (store : Store) :
    eval (bound + 2) around scope (asked (.text s) name (args.map .text)) store
      = callMethod (callValue (bound + 1) around) (.text s) name (args.map .text) store :=
  eval_asked rfl rfl (mapM_eval_text args store) name

end Asked

/-- The store after the items have been made an array. -/
def withArray (store : Store) (items : List Value) : Store :=
  { store with heap := (store.heap.newArray items.toArray).2 }

theorem items_withArray (store : Store) (items : List Value) :
    (withArray store items).heap.items store.heap.arrays.size = items.toArray := by
  rw [withArray, Heap.items_newArray, if_pos rfl]

section Methods

variable (call : Caller) (store : Store)

/-- What a text is split into: its characters, or its parts at the separator. -/
def splitParts (s separator : String) : List String :=
  (if separator.toList.isEmpty then s.toList.map fun c => [c]
    else pieces separator.toList s.toList).map String.ofList

theorem callMethod_split (s separator : String) :
    callMethod call (.text s) "split" [.text separator] store
      = .ok (.array store.heap.arrays.size)
          (withArray store ((splitParts s separator).map .text)) := by
  refine (run_bind_ok (textOf_text separator store)).trans ?_
  rw [splitParts, List.map_map]
  rfl

/-- Texts are joined as they are. -/
theorem callMethod_join (texts : List String) (between : String) {place : Nat}
    (hitems : store.heap.items place = (texts.map Value.text).toArray) :
    callMethod call (.array place) "join" [.text between] store
      = .ok (.text (between.intercalate texts)) store := by
  have htexts : (texts.map Value.text).mapM itemText store = .ok texts store := by
    clear hitems
    induction texts with
    | nil => rfl
    | cons text texts ih =>
      rw [List.map_cons, List.mapM_cons]
      exact (run_bind_ok (textOf_text text store)).trans ((run_bind_ok ih).trans rfl)
  have hplace : itemsAt place store = .ok (texts.map Value.text) store := by
    refine (run_bind_ok rfl).trans ?_
    rw [hitems]
    rfl
  refine (run_bind_ok (textOf_text between store)).trans ?_
  exact (run_bind_ok hplace).trans ((run_bind_ok htexts).trans rfl)

theorem callMethod_replaceAll (s needle new : String) :
    callMethod call (.text s) "replaceAll" [.text needle, .text new] store
      = .ok (charsValue (replaceEach needle.toList new.toList s.toList)) store := by
  have hargument (i : Nat) (t : String) (h : argument [.text needle, .text new] i = .text t) :
      charsArgument [.text needle, .text new] i store = .ok t.toList store := by
    rw [charsArgument, h]
    exact (run_bind_ok (textOf_text t store)).trans rfl
  exact (run_bind_ok (hargument 0 needle rfl)).trans
    ((run_bind_ok (hargument 1 new rfl)).trans rfl)

end Methods

/-! ### The three together -/

section Together

variable (s separator between : String) (around : Surroundings) (scope : Scope) (store : Store)
  (bound : Nat)

theorem eval_split :
    eval (bound + 2) around scope (asked (.text s) "split" [.text separator]) store
      = .ok (.array store.heap.arrays.size)
          (withArray store ((splitParts s separator).map .text)) :=
  (eval_asked_text s "split" [separator] store).trans (callMethod_split _ store s separator)

/-- What a text is split into, with a text between the parts. -/
theorem eval_splitJoined :
    eval (bound + 3) around scope
        (asked (asked (.text s) "split" [.text separator]) "join" [.text between]) store
      = .ok (.text (between.intercalate (splitParts s separator)))
          (withArray store ((splitParts s separator).map .text)) := by
  refine (eval_asked (eval_split s separator around scope store bound) rfl
    (mapM_eval_text [between] _) "join").trans ?_
  exact callMethod_join _ _ _ _ (items_withArray store _)

/-- The characters of the joined parts. -/
theorem toList_intercalate_splitParts (hne : separator ≠ "") :
    (between.intercalate (splitParts s separator)).toList
      = between.toList.intercalate (pieces separator.toList s.toList) := by
  have hempty : separator.toList.isEmpty = false := by simpa using hne
  rw [String.toList_intercalate, splitParts, hempty, if_neg Bool.false_ne_true, List.map_map]
  congr 1
  simp

/-- The characters of a text with nothing between them are the text. -/
theorem intercalate_splitParts_empty : "".intercalate (splitParts s "") = s := by
  have hchars (cs : List Char) : List.intercalate [] (cs.map fun c => [c]) = cs := by
    induction cs with
    | nil => rfl
    | cons c cs ih =>
      cases cs with
      | nil => rfl
      | cons d cs => simpa [List.intercalate] using ih
  refine String.toList_injective (Eq.trans ?_ (hchars s.toList))
  rw [String.toList_intercalate, splitParts, List.map_map]
  congr 1
  simp

/-- **Splitting, joining and replacing agree.**  The parts that a text is split into do not hold the
separator, with the separator between them they are the text again, and with another text between
them they are the text with that put in the place of each separator.  And a text is what its
characters are joined to. -/
theorem eval_split_join (new : String) (hne : separator ≠ "") :
    let run (e : Expr) := eval (bound + 3) around scope e store
    let split (separator : String) := asked (.text s) "split" [.text separator]
    let join (parts : Expr) (between : String) := asked parts "join" [.text between]
    ∃ parts : List String,
      run (split separator)
          = .ok (.array store.heap.arrays.size) (withArray store (parts.map .text))
        ∧ (∀ part ∈ parts, ¬ separator.toList <:+: part.toList)
        ∧ run (join (split separator) separator)
          = .ok (.text s) (withArray store (parts.map .text))
        ∧ (∃ text,
          run (join (split separator) new) = .ok (.text text) (withArray store (parts.map .text))
          ∧ run (asked (.text s) "replaceAll" [.text separator, .text new])
            = .ok (.text text) store)
        ∧ ∃ after, run (join (split "") "") = .ok (.text s) after := by
  intro run split join
  have hchars : separator.toList ≠ [] := by simpa using hne
  have hparted := partedAt_pieces hchars s.toList
  have hjoined (between : String) := toList_intercalate_splitParts s separator between hne
  refine ⟨splitParts s separator, eval_split s separator around scope store (bound + 1), ?_, ?_, ?_,
    ?_⟩
  · intro part hpart
    have hempty : separator.toList.isEmpty = false := List.isEmpty_eq_false_iff.mpr hchars
    rw [splitParts, hempty, if_neg Bool.false_ne_true] at hpart
    obtain ⟨cs, hcs, rfl⟩ := List.mem_map.mp hpart
    rw [String.toList_ofList]
    exact hparted.not_infix hchars cs hcs
  · have hwhole : separator.intercalate (splitParts s separator) = s :=
      String.toList_injective ((hjoined separator).trans (intercalate_pieces _ _))
    have hrun := eval_splitJoined s separator separator around scope store bound
    rwa [hwhole] at hrun
  · refine ⟨_, eval_splitJoined s separator new around scope store bound, ?_⟩
    refine (eval_asked_text s "replaceAll" [separator, new] store).trans ?_
    refine (callMethod_replaceAll _ store s separator new).trans ?_
    rw [hparted.replaceEach_eq hchars, charsValue, ← hjoined new, String.ofList_toList]
  · have hrun := eval_splitJoined s "" "" around scope store bound
    rw [intercalate_splitParts_empty] at hrun
    exact ⟨_, hrun⟩

end Together

/-- At a separator that overlaps itself, and stands at both ends. -/
theorem eval_split_join_overlapping :
    let run (e : Expr) := eval 3 unattended [] e {}
    let split := asked (.text "aaaéaa") "split" [.text "aa"]
    "aa" ≠ ""
      ∧ (∃ after, run (asked split "join" [.text "aa"]) = .ok (.text "aaaéaa") after)
      ∧ (∃ after, run (asked split "join" [.text "-"]) = .ok (.text "-aé-") after)
      ∧ run (asked (.text "aaaéaa") "replaceAll" [.text "aa", .text "-"])
        = .ok (.text "-aé-") {} := by
  intro run split
  have hne : "aa" ≠ "" := by decide
  obtain ⟨parts, -, -, hwhole, ⟨text, hjoin, hreplace⟩, -⟩ :=
    eval_split_join "aaaéaa" "aa" unattended [] {} 0 "-" hne
  have hvalue : run (asked (.text "aaaéaa") "replaceAll" [.text "aa", .text "-"])
      = .ok (.text "-aé-") {} := rfl
  cases hvalue.symm.trans hreplace
  exact ⟨hne, ⟨_, hwhole⟩, ⟨_, hjoin⟩, hvalue⟩

end Stencil.Routine
