import Stencil.Proofs.Reading.Tree
import Stencil.Text.Escape

/-!
# Reading a tree

What a template tree means, without a routine: its nodes are read one after the other, and what they
give is joined.

* `shown`, `Datum` — the text of a JSON value, and what a path can give;
* `Path.read` — what a path gives where names stand for JSON values;
* `readNodes` — the text of a tree, or why it has none;
* `readNodes_merge` — merging adjacent runs of text leaves the meaning as it is.
-/

namespace Stencil.Reading

open Routine

/-! ### Values -/

mutual

/-- The text that a JSON value is shown as. -/
def shown : Json → String
  | .null => "null"
  | .bool b => if b then "true" else "false"
  | .number n => numberText n.toFloat
  | .text s => s
  | .array items => ",".intercalate (shownItems items)
  | .object _ => "[object Object]"

/-- The texts of the items of a list; `null` is shown as nothing. -/
def shownItems : List Json → List String
  | [] => []
  | .null :: js => "" :: shownItems js
  | j :: js => shown j :: shownItems js

end

/-- What a path can give: a JSON value, or nothing where an object has no such member. -/
abbrev Datum : Type := Option Json

namespace Datum

/-- The text that is written for a datum. -/
def display : Datum → String
  | none => "undefined"
  | some j => shown j

/-- Whether a test with the datum succeeds. -/
def truthy : Datum → Bool
  | none => false
  | some .null => false
  | some (.bool b) => b
  | some (.number n) => !(n.toFloat == 0.0) && n.toFloat == n.toFloat
  | some (.text s) => !s.isEmpty
  | some (.array _) => true
  | some (.object _) => true

/-- What a datum has under a name. -/
def member (name : String) : Datum → Except Failure Datum
  | none => .error (.unreadable "undefined" name)
  | some .null => .error (.unreadable "null" name)
  | some (.object members) => .ok ((Roster.ofList members).get? name)
  | some (.array items) =>
    .ok (if name = "length" then some (.number (.natural items.length)) else none)
  | some (.text s) => .ok (if name = "length" then some (.number (.natural s.length)) else none)
  | some (.bool _) => .ok none
  | some (.number _) => .ok none

/-- The items of an array, or the characters of a text. -/
def items : Datum → Except Failure (List Json)
  | some (.array items) => .ok items
  | some (.text s) => .ok (s.toList.map fun c => .text (String.singleton c))
  | d => .error (.notIterable d.display)

end Datum

/-! ### Trees -/

/-- What names stand for. -/
abbrev Names : Type := String → Option Json

/-- The names with one more, which hides an equal one. -/
def Names.bind (names : Names) (name : String) (j : Json) : Names :=
  fun other => if name = other then some j else names other

/-- What members of members of a datum give. -/
def readMembers (members : List Identifier) (d : Datum) : Except Failure Datum :=
  members.foldlM (fun d m => d.member m.name) d

/-- What a path gives. -/
def Path.read (names : Names) (p : Path) : Except Failure Datum :=
  match names p.head.name with
  | none => .error (.unbound p.head.name)
  | some j => readMembers p.members (some j)

section Nodes

variable {τ : Type} (chars : τ → List Char)

mutual

/-- The text of a node. -/
def Node.read (names : Names) : Node τ → Except Failure String
  | .text t => .ok (String.ofList (chars t))
  | .escaped p => do return Text.escape (← p.read names).display
  | .raw p => do return (← p.read names).display
  | .branch test yes no => do
    if (← test.read names).truthy then readNodes names yes else readNodes names no
  | .each x source body => do
    let items ← (← source.read names).items
    let texts ← items.mapM fun j => readNodes (names.bind x.name j) body
    return String.join texts

/-- The text of a tree. -/
def readNodes (names : Names) : List (Node τ) → Except Failure String
  | [] => .ok ""
  | n :: ns => do return (← n.read names) ++ (← readNodes names ns)

end

end Nodes

/-! ### Merged text -/

/-- A text in front of another, if there is another. -/
def behind (cs : List Char) (text : Except Failure String) : Except Failure String :=
  text.map (String.ofList cs ++ ·)

theorem behind_nil (text : Except Failure String) : behind [] text = text := by
  cases text with
  | error f => rfl
  | ok s => exact congrArg Except.ok String.empty_append

theorem readNodes_textNode (names : Names) (cs : List Char) (ns : List (Node (List Char))) :
    readNodes id names (textNode cs ++ ns) = behind cs (readNodes id names ns) := by
  rw [textNode]
  split
  · rename_i hnil
    rw [List.isEmpty_iff] at hnil
    rw [hnil, behind_nil]
    rfl
  · rw [List.singleton_append, readNodes, Node.read]
    cases readNodes id names ns with
    | error f => rfl
    | ok s => rfl

mutual

/-- A node with merged text reads as the node. -/
theorem Node.read_merge (n : Node TextRun) (names : Names) :
    n.merge.read id names = n.read TextRun.chars names := by
  match n with
  | .text t => rfl
  | .escaped p => rfl
  | .raw p => rfl
  | .branch test yes no =>
    rw [Node.merge, Node.read, Node.read, readNodes_mergeNodes yes [] names,
      readNodes_mergeNodes no [] names, behind_nil, behind_nil]
  | .each x source body =>
    have hbody (j : Json) : readNodes id (names.bind x.name j) (mergeNodes [] body)
        = readNodes TextRun.chars (names.bind x.name j) body := by
      rw [readNodes_mergeNodes body [] _, behind_nil]
    rw [Node.merge, Node.read, Node.read]
    simp only [hbody]

/-- A merged tree reads as the tree behind the text that was seen. -/
theorem readNodes_mergeNodes (ns : List (Node TextRun)) (seen : List Char) (names : Names) :
    readNodes id names (mergeNodes seen ns) = behind seen (readNodes TextRun.chars names ns) := by
  match ns with
  | [] =>
    have h := readNodes_textNode names seen []
    rw [List.append_nil] at h
    rw [mergeNodes, h]
    rfl
  | n :: ns =>
    have hrest := readNodes_mergeNodes ns [] names
    rw [behind_nil] at hrest
    have other (hmerge : mergeNodes seen (n :: ns) = textNode seen ++ n.merge :: mergeNodes [] ns) :
        readNodes id names (mergeNodes seen (n :: ns))
          = behind seen (readNodes TextRun.chars names (n :: ns)) := by
      rw [hmerge, readNodes_textNode, readNodes, n.read_merge names, hrest]
      rfl
    cases n with
    | text t =>
      rw [mergeNodes, readNodes_mergeNodes ns (seen ++ t.chars) names, readNodes, Node.read]
      cases readNodes TextRun.chars names ns with
      | error f => rfl
      | ok s =>
        show Except.ok (String.ofList (seen ++ t.chars) ++ s) = .ok (_ ++ (_ ++ s))
        rw [String.ofList_append, String.append_assoc]
    | _ => exact other rfl

end

/-- Merging runs of text leaves what a tree reads as. -/
theorem readNodes_merge (ns : List (Node TextRun)) (names : Names) :
    readNodes id names (mergeNodes [] ns) = readNodes TextRun.chars names ns := by
  rw [readNodes_mergeNodes ns [] names, behind_nil]

end Stencil.Reading
