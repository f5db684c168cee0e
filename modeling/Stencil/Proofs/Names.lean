import Stencil.Proofs.FreeLoops

/-!
# Names in trees

Evaluating a tree looks at the scope only under the names that the tree uses, in its functions too.
A name that a tree merely declares, as a variable or a parameter, is not used by that.

* `Expr.names`, `Body.names`, `Stmt.names` — the names that are read or assigned to;
* `Expr.names_parts`, `Stmt.names_exprs`, `Stmt.names_stmts` — the parts use no other names.
-/

namespace Stencil.Routine

mutual

/-- The names that an expression reads or assigns to. -/
def Expr.names : Expr → List String
  | .number _ => []
  | .text _ => []
  | .bool _ => []
  | .null => []
  | .undefined => []
  | .name s => [s]
  | .array items => exprsNames items
  | .object members => membersNames members
  | .member object _ _ => object.names
  | .index object key _ => object.names ++ key.names
  | .call callee args _ => callee.names ++ exprsNames args
  | .unary _ operand => operand.names
  | .binary _ left right => left.names ++ right.names
  | .logical _ left right => left.names ++ right.names
  | .conditional test yes no => test.names ++ yes.names ++ no.names
  | .assign _ target value => target.names ++ value.names
  | .update _ _ target => target.names
  | .arrow _ _ body => body.names

/-- `Expr.names` along a list. -/
def exprsNames : List Expr → List String
  | [] => []
  | e :: es => e.names ++ exprsNames es

/-- `Expr.names` along named expressions. -/
def membersNames : List (String × Expr) → List String
  | [] => []
  | (_, e) :: es => e.names ++ membersNames es

/-- `Expr.names` along declared names, which may have no value. -/
def bindingsNames : List (String × Option Expr) → List String
  | [] => []
  | (_, none) :: es => bindingsNames es
  | (_, some e) :: es => e.names ++ bindingsNames es

/-- `Expr.names` of an expression that may be missing. -/
def optionNames : Option Expr → List String
  | none => []
  | some e => e.names

/-- The names that the body of a function reads or assigns to. -/
def Body.names : Body → List String
  | .expr e => e.names
  | .block stmts => stmtsNames stmts

/-- The names that a statement reads or assigns to.  A loop over a value assigns to its name if it
does not declare it. -/
def Stmt.names : Stmt → List String
  | .empty => []
  | .expr e => e.names
  | .declare _ bindings => bindingsNames bindings
  | .block stmts => stmtsNames stmts
  | .branch test yes none => test.names ++ yes.names
  | .branch test yes (some no) => test.names ++ yes.names ++ no.names
  | .each _ none name source body => name :: (source.names ++ body.names)
  | .each _ (some _) _ source body => source.names ++ body.names
  | .loop none test update body => optionNames test ++ optionNames update ++ body.names
  | .loop (some init) test update body =>
    init.names ++ optionNames test ++ optionNames update ++ body.names
  | .repeatWhile test body => test.names ++ body.names
  | .leave => []
  | .skip => []
  | .giveBack value => optionNames value
  | .raise e => e.names
  | .within object _ body => object.names ++ stmtsNames body

/-- `Stmt.names` along a list. -/
def stmtsNames : List Stmt → List String
  | [] => []
  | s :: ss => s.names ++ stmtsNames ss

end

theorem exprsNames_eq (es : List Expr) : exprsNames es = es.flatMap Expr.names := by
  induction es with
  | nil => rfl
  | cons e es ih => rw [exprsNames, List.flatMap_cons, ih]

theorem stmtsNames_eq (ss : List Stmt) : stmtsNames ss = ss.flatMap Stmt.names := by
  induction ss with
  | nil => rfl
  | cons s ss ih => rw [stmtsNames, List.flatMap_cons, ih]

theorem membersNames_eq (es : List (String × Expr)) :
    membersNames es = (es.map Prod.snd).flatMap Expr.names := by
  induction es with
  | nil => rfl
  | cons e es ih => rw [membersNames, List.map_cons, List.flatMap_cons, ih]

theorem bindingsNames_eq (es : List (String × Option Expr)) :
    bindingsNames es = (es.filterMap Prod.snd).flatMap Expr.names := by
  induction es with
  | nil => rfl
  | cons e es ih =>
    obtain ⟨name, value⟩ := e
    cases value with
    | none => exact ih
    | some e =>
      show e.names ++ bindingsNames es = (e :: es.filterMap Prod.snd).flatMap Expr.names
      rw [List.flatMap_cons, ih]

theorem optionNames_eq (e : Option Expr) : optionNames e = e.toList.flatMap Expr.names := by
  cases e with
  | none => rfl
  | some e => simp [optionNames]

/-! ### The parts use no other names -/

/-- What is in a list has its names among those of the list. -/
theorem names_subset_flatMap {α : Type} {names : α → List String} {a : α} {as : List α}
    (h : a ∈ as) : names a ⊆ as.flatMap names :=
  fun _ hn => List.mem_flatMap.mpr ⟨a, h, hn⟩

theorem names_subset_stmtsNames {s : Stmt} {ss : List Stmt} (h : s ∈ ss) :
    s.names ⊆ stmtsNames ss := by
  rw [stmtsNames_eq]
  exact names_subset_flatMap h

theorem Expr.names_targetParts {e part : Expr} (h : part ∈ e.targetParts) :
    part.names ⊆ e.names := by
  cases e <;> simp [Expr.targetParts] at h
  · subst h
    exact fun _ hn => hn
  · rcases h with rfl | rfl
    · exact List.subset_append_left _ _
    · exact List.subset_append_right _ _

theorem Expr.names_parts {e part : Expr} (h : part ∈ e.parts) : part.names ⊆ e.names := by
  cases e with
  | array items =>
    rw [Expr.names, exprsNames_eq]
    exact names_subset_flatMap h
  | object members =>
    rw [Expr.names, membersNames_eq]
    exact names_subset_flatMap h
  | call callee args optional =>
    rw [Expr.names, exprsNames_eq]
    simp only [Expr.parts, List.mem_cons, List.mem_append] at h
    rcases h with rfl | h | h
    · exact List.subset_append_left _ _
    · exact List.subset_append_of_subset_left _ (Expr.names_targetParts h)
    · exact List.subset_append_of_subset_right _ (names_subset_flatMap h)
  | assign op target value =>
    simp only [Expr.parts, List.mem_cons] at h
    rcases h with rfl | rfl | h
    · exact List.subset_append_left _ _
    · exact List.subset_append_right _ _
    · exact List.subset_append_of_subset_left _ (Expr.names_targetParts h)
  | update up leading target =>
    simp only [Expr.parts, List.mem_cons] at h
    rcases h with rfl | h
    · exact fun _ hn => hn
    · exact (Expr.names_targetParts h : part.names ⊆ target.names)
  | member | unary =>
    obtain rfl := List.mem_singleton.mp h
    exact fun _ hn => hn
  | index | binary | logical =>
    simp only [Expr.parts, List.mem_cons, List.not_mem_nil, or_false] at h
    rcases h with rfl | rfl
    · exact List.subset_append_left _ _
    · exact List.subset_append_right _ _
  | conditional test yes no =>
    simp only [Expr.parts, List.mem_cons, List.not_mem_nil, or_false] at h
    rcases h with rfl | rfl | rfl
    · exact List.subset_append_of_subset_left _ (List.subset_append_left _ _)
    · exact List.subset_append_of_subset_left _ (List.subset_append_right _ _)
    · exact List.subset_append_right _ _
  | number | text | bool | null | undefined | name | arrow => cases h

theorem Stmt.names_exprs {s : Stmt} {e : Expr} (h : e ∈ s.exprs) : e.names ⊆ s.names := by
  cases s with
  | declare kind bindings =>
    rw [Stmt.names, bindingsNames_eq]
    exact names_subset_flatMap h
  | giveBack value =>
    rw [Stmt.names, optionNames_eq]
    exact names_subset_flatMap h
  | loop init test update body =>
    have hmem : e.names ⊆ optionNames test ++ optionNames update := by
      rw [optionNames_eq, optionNames_eq, ← List.flatMap_append]
      exact names_subset_flatMap h
    cases init with
    | none => exact List.subset_append_of_subset_left _ hmem
    | some init =>
      rw [Stmt.names, List.append_assoc init.names]
      exact List.subset_append_of_subset_left _ (List.subset_append_of_subset_right _ hmem)
  | branch test yes no =>
    obtain rfl := List.mem_singleton.mp h
    cases no with
    | none => exact List.subset_append_left _ _
    | some no => exact List.subset_append_of_subset_left _ (List.subset_append_left _ _)
  | each head kind name source body =>
    obtain rfl := List.mem_singleton.mp h
    cases kind with
    | none => exact List.subset_cons_of_subset _ (List.subset_append_left _ _)
    | some kind => exact List.subset_append_left _ _
  | expr | raise =>
    obtain rfl := List.mem_singleton.mp h
    exact fun _ hn => hn
  | repeatWhile | within =>
    obtain rfl := List.mem_singleton.mp h
    exact List.subset_append_left _ _
  | empty | block | leave | skip => cases h

theorem Stmt.names_stmts {s part : Stmt} (h : part ∈ s.stmts) : part.names ⊆ s.names := by
  cases s with
  | block stmts =>
    exact names_subset_stmtsNames h
  | within object guarded body =>
    exact List.subset_append_of_subset_right _ (names_subset_stmtsNames h)
  | branch test yes no =>
    cases no with
    | none =>
      obtain rfl := List.mem_singleton.mp h
      exact List.subset_append_right _ _
    | some no =>
      simp only [Stmt.stmts, Option.toList_some, List.mem_cons, List.not_mem_nil, or_false] at h
      rcases h with rfl | rfl
      · exact List.subset_append_of_subset_left _ (List.subset_append_right _ _)
      · exact List.subset_append_right _ _
  | loop init test update body =>
    cases init with
    | none =>
      obtain rfl := List.mem_singleton.mp h
      exact List.subset_append_right _ _
    | some init =>
      simp only [Stmt.stmts, Option.toList_some, List.mem_cons, List.not_mem_nil, or_false] at h
      rcases h with rfl | rfl
      · exact List.subset_append_right _ _
      · simp only [Stmt.names, List.append_assoc]
        exact List.subset_append_left _ _
  | each head kind name source body =>
    obtain rfl := List.mem_singleton.mp h
    cases kind with
    | none => exact List.subset_cons_of_subset _ (List.subset_append_right _ _)
    | some kind => exact List.subset_append_right _ _
  | repeatWhile test body =>
    obtain rfl := List.mem_singleton.mp h
    exact List.subset_append_right _ _
  | empty | expr | declare | leave | skip | giveBack | raise => cases h

end Stencil.Routine
