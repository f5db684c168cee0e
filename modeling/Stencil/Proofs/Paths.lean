import Stencil.Files.Path
import Stencil.Proofs.Marks

/-!
# Paths below a folder

A path that is followed from a folder by the names of entries has the parts of the folder in front of
these names, whatever the path of the folder looks like.  So what is below a folder is told apart by
the names on the way to it, and the names of fragments forget nothing but the last extension.

* `pieces_eq_splitOn` — the pieces between single characters;
* `IsEntryName`, `pathTo` — the names of entries, and the path along them;
* `pathParts_pathTo` — the parts of such a path;
* `nameBelow`, `fragmentName_pathTo` — the name of the fragment that is stored there;
* `Namesakes`, `nameBelow_eq_iff` — the fragments that have one name.
-/

namespace Stencil

open Text

/-! ### Pieces -/

/-- The pieces between single characters. -/
theorem pieces_eq_splitOn (d : Char) (cs : List Char) : pieces [d] cs = cs.splitOn d := by
  suffices ∀ bound, cs.length ≤ bound → piecesWithin [d] bound cs = cs.splitOn d from
    this cs.length le_rfl
  intro bound
  induction bound generalizing cs with
  | zero =>
    intro h
    rw [List.length_eq_zero_iff.mp (Nat.le_zero.mp h), piecesWithin, List.splitOn_nil]
  | succ bound ih =>
    intro h
    rw [piecesWithin]
    by_cases hmem : d ∈ cs
    · obtain ⟨front, rest, rfl, hfront⟩ := List.eq_append_cons_of_mem hmem
      have hcut : cut [d] (front ++ d :: rest) = some (front, rest) := by
        have hhere : cut [d] (d :: rest) = some ([], rest) :=
          cut_of_stripFront (stripFront_append [d] rest)
        rw [cut_of_notMem hfront, hhere]
        exact congrArg some (Prod.ext (List.append_nil front) rfl)
      rw [hcut, List.splitOn_append_cons_self_of_not_mem hfront]
      dsimp only
      rw [ih rest (by simp at h; omega)]
    · have hcut : cut [d] cs = none := by
        have hmore : cut [d] (cs ++ []) = _ := cut_of_notMem hmem []
        rw [List.append_nil] at hmore
        exact hmore
      rw [hcut, List.splitOn_eq_singleton hmem]

theorem pathPieces_eq (path : String) :
    pathPieces path = (path.toList.splitOn '/').map String.ofList := by
  rw [pathPieces, pieces_eq_splitOn]

/-! ### Names of entries -/

/-- What an entry of a folder can be called. -/
structure IsEntryName (name : String) : Prop where
  ne_empty : name ≠ ""
  ne_here : name ≠ "."
  ne_up : name ≠ ".."
  noSlash : '/' ∉ name.toList

theorem isAbsolute_eq (path : String) : isAbsolute path = (path.toList.head? == some '/') := by
  rw [isAbsolute, startsWith]
  cases path.toList with
  | nil => rfl
  | cons c cs =>
    rw [stripFront]
    by_cases hc : c = '/'
    · subst hc
      rfl
    · rw [if_neg (Ne.symm hc)]
      simpa using hc

namespace IsEntryName

variable {name : String} (h : IsEntryName name)

include h

theorem pathPart? : pathPart? name = some (.name name) := by
  rw [Stencil.pathPart?]
  simp [h.ne_empty, h.ne_here, h.ne_up]

theorem not_absolute : isAbsolute name = false := by
  rw [isAbsolute_eq, beq_eq_false_iff_ne]
  exact fun hhead => h.noSlash (List.mem_of_head? hhead)

theorem pathPieces : pathPieces name = [name] := by
  rw [pathPieces_eq, List.splitOn_eq_singleton h.noSlash]
  simp

/-- A slash in front of a name divides it from what is before. -/
theorem pathPieces_behind (front : String) :
    Stencil.pathPieces (front ++ "/" ++ name) = Stencil.pathPieces front ++ [name] := by
  have hlist : (front ++ "/" ++ name).toList = front.toList ++ '/' :: name.toList := by simp
  rw [pathPieces_eq, hlist, List.splitOn_append_cons_self, List.splitOn_eq_singleton h.noSlash,
    List.map_append, ← pathPieces_eq]
  simp

end IsEntryName

theorem pathPieces_ne_nil (path : String) : pathPieces path ≠ [] := by
  rw [pathPieces_eq, ne_eq, List.map_eq_nil_iff]
  exact List.splitOn_ne_nil _ _

/-! ### Paths that go on -/

/-- What a path begins with is settled by its first character and its first piece. -/
theorem pathStart_congr {path path' : String} (hchar : path.toList.head? = path'.toList.head?)
    (hpiece : (pathPieces path).head? = (pathPieces path').head?) :
    pathStart path = pathStart path' := by
  rw [pathStart, pathStart, isAbsolute_eq, isAbsolute_eq, hchar, hpiece]

/-- A path is seen from a folder by what stands in front of the slash that divides them, and that
slash belongs to the path of the folder or not. -/
theorem joinPath_cases {name : String} (h : IsEntryName name) {folder : String}
    (hfolder : folder ≠ "") :
    ∃ front, joinPath folder name = front ++ "/" ++ name
      ∧ (folder = front ∨ folder = front ++ "/") := by
  have hempty : folder.isEmpty = false := by simpa using hfolder
  rw [joinPath, h.not_absolute, if_neg Bool.false_ne_true, hempty, Bool.false_or]
  split
  · rename_i hslash
    rw [endsWith, startsWith, Option.isSome_iff_exists] at hslash
    obtain ⟨rest, hrest⟩ := hslash
    have hfront : folder = String.ofList rest.reverse ++ "/" := by
      have := congrArg List.reverse (eq_of_stripFront hrest)
      rw [List.reverse_reverse] at this
      rw [← String.toList_inj, this]
      simp
    exact ⟨String.ofList rest.reverse, by rw [← hfront], .inr hfront⟩
  · exact ⟨folder, rfl, .inl rfl⟩

/-- An entry of a folder has the parts of the folder in front of its own name. -/
theorem pathParts_joinPath {name : String} (h : IsEntryName name) (folder : String) :
    pathParts (joinPath folder name) = pathParts folder ++ [.name name] := by
  have hname : [name].filterMap pathPart? = [.name name] := by
    rw [List.filterMap_cons_some h.pathPart?, List.filterMap_nil]
  by_cases hfolder : folder = ""
  · have hjoin : joinPath folder name = name := by
      rw [joinPath, h.not_absolute, hfolder]
      exact String.empty_append
    have hstart : pathStart name = [] := by
      rw [pathStart, h.not_absolute, h.pathPieces]
      simpa using h.ne_here
    rw [hjoin, pathParts, hstart, h.pathPieces, hname, hfolder]
    rfl
  · obtain ⟨front, hjoin, hcases⟩ := joinPath_cases h hfolder
    obtain ⟨piece, pieces, hpieces⟩ := List.exists_cons_of_ne_nil (pathPieces_ne_nil front)
    have hjoined : pathPieces (joinPath folder name) = pathPieces front ++ [name] := by
      rw [hjoin, h.pathPieces_behind]
    obtain ⟨hstart, hsame⟩ : pathStart (joinPath folder name) = pathStart folder
        ∧ (pathPieces folder).filterMap pathPart? = (pathPieces front).filterMap pathPart? := by
      rcases hcases with rfl | rfl
      · refine ⟨pathStart_congr ?_ ?_, rfl⟩
        · obtain ⟨c, cs, hcs⟩ := List.exists_cons_of_ne_nil
            (fun hnil => hfolder (String.toList_eq_nil_iff.mp hnil))
          rw [hjoin, String.toList_append, String.toList_append, hcs]
          rfl
        · rw [hjoined, hpieces]
          rfl
      · have hslash : pathPieces (front ++ "/") = pathPieces front ++ [""] := by
          have hlist : (front ++ "/").toList = front.toList ++ '/' :: [] := by simp
          rw [pathPieces_eq, hlist, List.splitOn_append_cons_self, List.map_append, ← pathPieces_eq]
          rfl
        refine ⟨pathStart_congr ?_ ?_, ?_⟩
        · rw [hjoin, String.toList_append]
          cases front.toList <;> simp
        · rw [hjoined, hslash, hpieces]
          rfl
        · rw [hslash, List.filterMap_append]
          exact List.append_nil _
    rw [pathParts, pathParts, hstart, hjoined, List.filterMap_append, hname, hsame,
      List.append_assoc]

/-- The path along the names of entries. -/
def pathTo (folder : String) (names : List String) : String := names.foldl joinPath folder

theorem pathParts_pathTo {names : List String} (h : ∀ name ∈ names, IsEntryName name)
    (folder : String) :
    pathParts (pathTo folder names) = pathParts folder ++ names.map .name := by
  induction names generalizing folder with
  | nil => exact (List.append_nil _).symm
  | cons name names ih =>
    have hinner := ih (fun other hother => h other (List.mem_cons_of_mem name hother))
      (joinPath folder name)
    rw [pathParts_joinPath (h name List.mem_cons_self)] at hinner
    rw [pathTo, List.foldl_cons, ← pathTo, hinner, List.append_assoc]
    rfl

/-! ### Names of fragments -/

theorem partsBelow?_append (root parts : List PathPart) :
    partsBelow? root (root ++ parts) = some parts := by
  induction root with
  | nil => rfl
  | cons r root ih => rw [List.cons_append, partsBelow?, if_pos rfl, ih]

theorem stemmed_names (front : List String) (last : String) :
    stemmed ((front ++ [last]).map .name) = front ++ [withoutExtension last] := by
  induction front with
  | nil => rfl
  | cons name front ih =>
    obtain ⟨part, parts, hparts⟩ := List.exists_cons_of_ne_nil
      (l := (front ++ [last]).map PathPart.name) (by simp)
    rw [List.cons_append, List.map_cons, hparts, stemmed, ← hparts, ih]
    · rfl
    · exact nofun

/-- The name of the fragment in a file that these names lead to from the folder of fragments. -/
def nameBelow (names : List String) : String := "/".intercalate (stemmed (names.map .name))

theorem fragmentName_pathTo {names : List String} (h : ∀ name ∈ names, IsEntryName name)
    (folder : String) : fragmentName (pathTo folder names) folder = .ok (nameBelow names) := by
  rw [fragmentName, pathParts_pathTo h, partsBelow?_append]
  rfl

theorem mem_of_splitExtension? {name front extension : String}
    (h : splitExtension? name = some (front, extension)) {c : Char} (hc : c ∈ front.toList) :
    c ∈ name.toList := by
  rw [splitExtension?] at h
  split at h
  · rename_i dot first rest hdrop
    cases h
    have hmem : c ∈ name.toList.reverse.dropWhile (· != '.') := by
      rw [hdrop]
      simp only [String.toList_ofList, List.mem_reverse] at hc
      exact List.mem_cons_of_mem _ hc
    exact List.mem_reverse.mp ((List.dropWhile_suffix _).mem hmem)
  · cases h

/-- Leaving out the extension brings no slash in. -/
theorem noSlash_withoutExtension {name : String} (h : '/' ∉ name.toList) :
    '/' ∉ (withoutExtension name).toList := by
  rw [withoutExtension]
  split
  · rename_i front extension hsplit
    split
    · decide
    · exact fun hc => h (mem_of_splitExtension? hsplit hc)
  · exact h

/-- Slashes are found again where nothing else has them. -/
theorem intercalate_slash_inj {parts parts' : List String} (h : ∀ p ∈ parts, '/' ∉ p.toList)
    (h' : ∀ p ∈ parts', '/' ∉ p.toList) (hne : parts ≠ []) (hne' : parts' ≠ [])
    (heq : "/".intercalate parts = "/".intercalate parts') : parts = parts' := by
  have split {ps : List String} (hps : ∀ p ∈ ps, '/' ∉ p.toList) (hsome : ps ≠ []) :
      ("/".intercalate ps).toList.splitOn '/' = ps.map String.toList := by
    rw [String.toList_intercalate]
    refine List.splitOn_intercalate '/' (fun cs hcs => ?_) (by simpa using hsome)
    obtain ⟨p, hp, rfl⟩ := List.mem_map.mp hcs
    exact hps p hp
  have hlists : parts.map String.toList = parts'.map String.toList := by
    rw [← split h hne, ← split h' hne', heq]
  exact List.map_injective_iff.mpr (fun _ _ => String.toList_inj.mp) hlists

/-- Two files in one folder whose names differ in the extension at most. -/
def Namesakes (names names' : List String) : Prop :=
  ∃ front last last', names = front ++ [last] ∧ names' = front ++ [last']
    ∧ withoutExtension last = withoutExtension last'

theorem Namesakes.length_eq {names names' : List String} (h : Namesakes names names') :
    names.length = names'.length := by
  obtain ⟨front, last, last', rfl, rfl, -⟩ := h
  rw [List.length_append, List.length_append, List.length_singleton, List.length_singleton]

/-- Fragments that have one name are in one folder, and their names differ in the extension at
most. -/
theorem nameBelow_eq_iff {names names' : List String} (h : ∀ name ∈ names, IsEntryName name)
    (h' : ∀ name ∈ names', IsEntryName name) (hne : names ≠ []) (hne' : names' ≠ []) :
    nameBelow names = nameBelow names' ↔ Namesakes names names' := by
  obtain ⟨front, last, rfl⟩ := (List.eq_nil_or_concat' names).resolve_left hne
  obtain ⟨front', last', rfl⟩ := (List.eq_nil_or_concat' names').resolve_left hne'
  have noSlash {front : List String} {last : String}
      (hnames : ∀ name ∈ front ++ [last], IsEntryName name) :
      ∀ p ∈ front ++ [withoutExtension last], '/' ∉ p.toList := by
    intro p hp
    rcases List.mem_append.mp hp with hp | hp
    · exact (hnames p (List.mem_append_left _ hp)).noSlash
    · rw [List.mem_singleton.mp hp]
      exact noSlash_withoutExtension (hnames last (by simp)).noSlash
  rw [nameBelow, nameBelow, stemmed_names, stemmed_names]
  constructor
  · intro heq
    obtain ⟨hfront, hstem⟩ := List.append_singleton_inj.mp
      (intercalate_slash_inj (noSlash h) (noSlash h') (by simp) (by simp) heq)
    exact ⟨front, last, last', rfl, by rw [hfront], hstem⟩
  · rintro ⟨around, name, name', hnames, hnames', hstem⟩
    obtain ⟨rfl, rfl⟩ := List.append_singleton_inj.mp hnames
    obtain ⟨rfl, rfl⟩ := List.append_singleton_inj.mp hnames'
    rw [hstem]

end Stencil
