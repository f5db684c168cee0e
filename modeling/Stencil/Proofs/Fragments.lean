import Mathlib.Data.Finset.Card
import Mathlib.Data.String.Basic
import Mathlib.Tactic.Choose
import Stencil.Cache
import Stencil.Files.Fragments
import Stencil.Proofs.Paths

/-!
# Loading fragments

A folder of fragments is loaded file by file, in the order of the names that lead to them.  The files
that come in are all files in sight; but the name of a fragment has no extension, so of several files
whose names differ only in it the last one takes the place of the others.

* `Node.WellNamed`, `Node.FileAt` — trees, and the files in sight below a node;
* `Node.Listing`, `WellNamed.listing` — the files that are found are these, in order;
* `Roster.get?_ofList`, `Roster.size_ofList` — the entries of a roster that is given by pairs;
* `loadFragments_files` — the main theorem;
* `loadFragments_sameStem` — a file that is lost.
-/

namespace Stencil

/-! ### Trees -/

/-- In each folder of a tree, the entries have different names, which paths can follow. -/
inductive Node.WellNamed : Node → Prop where
  | file (bytes : ByteArray) : WellNamed (.file bytes)
  | folder {entries : List (String × Node)} (hnames : ∀ entry ∈ entries, IsEntryName entry.1)
    (hnodup : (entries.map Prod.fst).Nodup) (hinner : ∀ entry ∈ entries, WellNamed entry.2) :
    WellNamed (.folder entries)

/-- Names lead from a node to a file with these bytes, and none of them is hidden. -/
inductive Node.FileAt : Node → List String → ByteArray → Prop where
  | file (bytes : ByteArray) : FileAt (.file bytes) [] bytes
  | entry {entries : List (String × Node)} {name : String} {node : Node} {names : List String}
    {bytes : ByteArray} (hmem : (name, node) ∈ entries) (hseen : isHidden name = false)
    (h : FileAt node names bytes) : FileAt (.folder entries) (name :: names) bytes

namespace Node

theorem fileAt_file_iff {bytes bytes' : ByteArray} {names : List String} :
    (file bytes).FileAt names bytes' ↔ names = [] ∧ bytes' = bytes := by
  constructor
  · rintro ⟨⟩
    exact ⟨rfl, rfl⟩
  · rintro ⟨rfl, rfl⟩
    exact .file _

theorem fileAt_folder_iff {entries : List (String × Node)} {names : List String}
    {bytes : ByteArray} :
    (folder entries).FileAt names bytes ↔ ∃ entry ∈ entries, isHidden entry.1 = false
      ∧ ∃ inner, names = entry.1 :: inner ∧ entry.2.FileAt inner bytes := by
  constructor
  · rintro (_ | ⟨hmem, hseen, h⟩)
    exact ⟨_, hmem, hseen, _, rfl, h⟩
  · rintro ⟨⟨name, node⟩, hmem, hseen, inner, rfl, h⟩
    exact .entry hmem hseen h

/-- The names that lead to a file are names of entries. -/
theorem FileAt.isEntryName {node : Node} {names : List String} {bytes : ByteArray}
    (h : node.FileAt names bytes) (hnode : node.WellNamed) : ∀ name ∈ names, IsEntryName name := by
  induction h with
  | file bytes => exact fun name hname => absurd hname List.not_mem_nil
  | entry hmem hseen h ih =>
    cases hnode with
    | folder hnames hnodup hinner =>
      intro name hname
      rcases List.mem_cons.mp hname with rfl | hname
      · exact hnames _ hmem
      · exact ih (hinner _ hmem) name hname

/-! ### The files that are found -/

/-- These are the files in sight below a node, with the names that lead there, in order. -/
structure Listing (node : Node) (files : List (List String × ByteArray)) : Prop where
  filesBelow_eq : ∀ path, filesBelow path node = files.map fun file => (pathTo path file.1, file.2)
  mem_iff : ∀ file, file ∈ files ↔ node.FileAt file.1 file.2
  sorted : files.Pairwise fun file file' => file.1 < file'.1

/-- The entries of a folder that are not hidden, in order. -/
def seenEntries (entries : List (String × Node)) : List (String × Node) :=
  (entries.filter fun entry => !isHidden entry.1).mergeSort fun a b => !decide (b.1 < a.1)

theorem mem_seenEntries {entries : List (String × Node)} {entry : String × Node} :
    entry ∈ seenEntries entries ↔ entry ∈ entries ∧ isHidden entry.1 = false := by
  rw [seenEntries, List.mem_mergeSort, List.mem_filter, Bool.not_eq_true']

theorem filesInEach_eq (path : String) (entries : List (String × Node)) :
    filesInEach path entries = (entries.filter fun entry => !isHidden entry.1).map fun entry =>
      (entry.1, filesBelow (joinPath path entry.1) entry.2) := by
  induction entries with
  | nil => rfl
  | cons entry entries ih =>
    obtain ⟨name, node⟩ := entry
    rw [filesInEach, List.filter_cons]
    cases hseen : isHidden name with
    | true => exact ih
    | false =>
      rw [if_neg Bool.false_ne_true, ih]
      rfl

theorem filesBelow_folder (path : String) (entries : List (String × Node)) :
    filesBelow path (.folder entries) = (seenEntries entries).flatMap fun entry =>
      filesBelow (joinPath path entry.1) entry.2 := by
  rw [filesBelow, filesInEach_eq, seenEntries,
    ← List.map_mergeSort (r := fun a b => !decide (b.1 < a.1)) (fun _ _ _ _ => rfl),
    List.flatMap_map]

/-- Different names come in strict order. -/
theorem seenEntries_sorted {entries : List (String × Node)}
    (hnodup : (entries.map Prod.fst).Nodup) :
    (seenEntries entries).Pairwise fun entry entry' => entry.1 < entry'.1 := by
  have hle : (seenEntries entries).Pairwise fun a b => (!decide (b.1 < a.1)) = true := by
    refine List.pairwise_mergeSort (fun a b c hab hbc => ?_) (fun a b => ?_) _
    · simp only [Bool.not_eq_true', decide_eq_false_iff_not, not_lt] at hab hbc ⊢
      exact hab.trans hbc
    · simp only [Bool.or_eq_true, Bool.not_eq_true', decide_eq_false_iff_not, not_lt]
      exact le_total a.1 b.1
  have hne : (seenEntries entries).Pairwise fun a b => a.1 ≠ b.1 := by
    have hsub : ((entries.filter fun entry => !isHidden entry.1).map Prod.fst).Nodup :=
      hnodup.sublist (List.filter_sublist.map _)
    exact List.pairwise_map.mp (((List.mergeSort_perm _ _).map Prod.fst).nodup_iff.mpr hsub)
  refine (hle.and hne).imp fun {a b} h => ?_
  simp only [Bool.not_eq_true', decide_eq_false_iff_not, not_lt] at h
  exact lt_of_le_of_ne h.1 h.2

/-- The files below the entries of a folder are put together to those below the folder. -/
theorem WellNamed.listing {node : Node} (h : node.WellNamed) : ∃ files, node.Listing files := by
  induction h with
  | file bytes =>
    refine ⟨[([], bytes)], fun path => rfl, fun file => ?_, List.pairwise_singleton _ _⟩
    rw [fileAt_file_iff, List.mem_singleton, Prod.ext_iff]
  | @folder entries hnames hnodup hinner ih =>
    choose! inner hlisting using ih
    refine ⟨(seenEntries entries).flatMap fun entry =>
      (inner entry).map fun file => (entry.1 :: file.1, file.2), fun path => ?_, fun file => ?_, ?_⟩
    · rw [filesBelow_folder, List.map_flatMap]
      refine List.flatMap_congr fun entry hentry => ?_
      rw [(hlisting entry (mem_seenEntries.mp hentry).1).filesBelow_eq, List.map_map]
      rfl
    · rw [fileAt_folder_iff, List.mem_flatMap]
      constructor
      · rintro ⟨entry, hentry, hfile⟩
        obtain ⟨hmem, hseen⟩ := mem_seenEntries.mp hentry
        obtain ⟨below, hbelow, rfl⟩ := List.mem_map.mp hfile
        exact ⟨entry, hmem, hseen, below.1, rfl, ((hlisting entry hmem).mem_iff below).mp hbelow⟩
      · rintro ⟨entry, hmem, hseen, names, hnames, hfile⟩
        refine ⟨entry, mem_seenEntries.mpr ⟨hmem, hseen⟩, List.mem_map.mpr ⟨(names, file.2), ?_, ?_⟩⟩
        · exact ((hlisting entry hmem).mem_iff _).mpr hfile
        · exact Prod.ext hnames.symm rfl
    · rw [List.pairwise_flatMap]
      constructor
      · intro entry hentry
        refine List.pairwise_map.mpr ((hlisting entry (mem_seenEntries.mp hentry).1).sorted.imp ?_)
        exact fun h => List.cons_lt_cons_iff.mpr (.inr ⟨rfl, h⟩)
      · refine (seenEntries_sorted hnodup).imp fun h file hfile file' hfile' => ?_
        obtain ⟨below, -, rfl⟩ := List.mem_map.mp hfile
        obtain ⟨below', -, rfl⟩ := List.mem_map.mp hfile'
        exact List.cons_lt_cons_iff.mpr (.inl h)

end Node

/-! ### Rosters of pairs -/

namespace Roster

variable {α : Type}

theorem get?_insertAll_eq_some_iff (r : Roster α) (pairs : List (String × α)) (name : String)
    (a : α) :
    (r.insertAll pairs).get? name = some a
      ↔ (∃ front back, pairs = front ++ (name, a) :: back ∧ name ∉ back.map Prod.fst)
        ∨ (name ∉ pairs.map Prod.fst ∧ r.get? name = some a) := by
  induction pairs generalizing r with
  | nil =>
    constructor
    · exact fun h => .inr ⟨List.not_mem_nil, h⟩
    · rintro (⟨front, back, h, -⟩ | ⟨-, h⟩)
      · cases front <;> cases h
      · exact h
  | cons pair pairs ih =>
    have hstep : (r.insertAll (pair :: pairs)).get? name
        = ((r.insert pair.1 pair.2).insertAll pairs).get? name := rfl
    rw [hstep, ih, get?_insert]
    constructor
    · rintro (⟨front, back, rfl, hback⟩ | ⟨hlater, h⟩)
      · exact .inl ⟨pair :: front, back, rfl, hback⟩
      · split at h
        · rename_i hname
          subst hname
          cases h
          exact .inl ⟨[], pairs, rfl, hlater⟩
        · rename_i hname
          refine .inr ⟨?_, h⟩
          rw [List.map_cons, List.mem_cons, not_or]
          exact ⟨fun heq => hname heq.symm, hlater⟩
    · rintro (⟨front, back, hsplit, hback⟩ | ⟨hnone, h⟩)
      · cases front with
        | nil =>
          cases hsplit
          exact .inr ⟨hback, if_pos rfl⟩
        | cons first front =>
          cases hsplit
          exact .inl ⟨front, back, rfl, hback⟩
      · rw [List.map_cons, List.mem_cons, not_or] at hnone
        exact .inr ⟨hnone.2, by rw [if_neg fun heq => hnone.1 heq.symm, h]⟩

/-- Of the pairs with a name the last one gives the entry. -/
theorem get?_ofList (pairs : List (String × α)) (name : String) (a : α) :
    (ofList pairs).get? name = some a
      ↔ ∃ front back, pairs = front ++ (name, a) :: back ∧ name ∉ back.map Prod.fst := by
  rw [ofList, get?_insertAll_eq_some_iff]
  exact or_iff_left fun h => nomatch h.2

theorem mem_names_insertAll (r : Roster α) (pairs : List (String × α)) (name : String) :
    name ∈ (r.insertAll pairs).names ↔ name ∈ r.names ∨ name ∈ pairs.map Prod.fst := by
  induction pairs generalizing r with
  | nil => simp [insertAll]
  | cons pair pairs ih =>
    have hstep : (r.insertAll (pair :: pairs)).names
        = ((r.insert pair.1 pair.2).insertAll pairs).names := rfl
    rw [hstep, ih, names_insert, List.map_cons, List.mem_cons]
    split
    · rename_i hknown
      constructor
      · exact Or.imp_right .inr
      · rintro (h | rfl | h)
        · exact .inl h
        · exact .inl hknown
        · exact .inr h
    · rw [List.mem_append, List.mem_singleton, or_assoc]

/-- A roster of pairs has as many entries as there are names. -/
theorem size_ofList (pairs : List (String × α)) :
    (ofList pairs).size = (pairs.map Prod.fst).toFinset.card := by
  have hnames : (ofList pairs).names.toFinset = (pairs.map Prod.fst).toFinset := by
    ext name
    rw [List.mem_toFinset, List.mem_toFinset, ofList, mem_names_insertAll]
    exact or_iff_right List.not_mem_nil
  have hcard : (ofList pairs).names.toFinset.card = (ofList pairs).names.length :=
    List.toFinset_card_of_nodup (ofList pairs).nodup
  rw [← hnames, hcard, names, List.length_map, size]

end Roster

/-! ### Folders of fragments -/

theorem mapM_ok {ε α β : Type} {f : α → Except ε β} {g : α → β} {as : List α}
    (h : ∀ a ∈ as, f a = .ok (g a)) : as.mapM f = .ok (as.map g) := by
  induction as with
  | nil => rfl
  | cons a as ih =>
    rw [List.mapM_cons, h a List.mem_cons_self, ih fun b hb => h b (List.mem_cons_of_mem a hb)]
    rfl

/-- The text that bytes encode, if they encode one. -/
def textOf (bytes : ByteArray) : String := (String.fromUTF8? bytes).getD ""

theorem textOf_eq {bytes : ByteArray} {text : String} (h : Disk.decode bytes = .ok text) :
    textOf bytes = text := by
  rw [Disk.decode] at h
  rw [textOf]
  split at h
  · rename_i hbytes
    cases h
    rw [hbytes, Option.getD_some]
  · cases h

variable {d : Disk} {folder : String} {entries : List (String × Node)}

/-- Where every file in sight has a text, the fragments are the files in order. -/
theorem loadFragments_eq (hfolder : d.folder? folder = some entries)
    (hnamed : (Node.folder entries).WellNamed)
    (htexts : ∀ names bytes, (Node.folder entries).FileAt names bytes →
      ∃ text, Disk.decode bytes = .ok text)
    {files : List (List String × ByteArray)} (hfiles : (Node.folder entries).Listing files) :
    loadFragments d folder
      = .ok (.ofList (files.map fun file => (nameBelow file.1, textOf file.2))) := by
  have hload : ∀ file ∈ files,
      loadFragment folder (pathTo folder file.1, file.2) = .ok (nameBelow file.1, textOf file.2) := by
    intro file hmem
    have hfile := (hfiles.mem_iff file).mp hmem
    obtain ⟨text, htext⟩ := htexts _ _ hfile
    rw [loadFragment, fragmentName_pathTo (hfile.isEntryName hnamed), htext, textOf_eq htext]
    rfl
  have hall : (filesBelow folder (.folder entries)).mapM (loadFragment folder)
      = .ok (files.map fun file => (nameBelow file.1, textOf file.2)) := by
    rw [hfiles.filesBelow_eq, List.mapM_map]
    exact mapM_ok hload
  rw [loadFragments, hfolder]
  dsimp only
  rw [hall]
  rfl

/-- Of the files in a folder that differ in the extension at most, none comes behind this one. -/
def Node.IsLast (node : Node) (front : List String) (last : String) : Prop :=
  ∀ other bytes, node.FileAt (front ++ [other]) bytes →
    withoutExtension other = withoutExtension last → other ≤ last

/-- Behind the same names, the last names give the order. -/
theorem append_singleton_lt_iff {front : List String} {last other : String} :
    front ++ [last] < front ++ [other] ↔ last < other := by
  induction front with
  | nil =>
    rw [List.nil_append, List.nil_append, List.cons_lt_cons_iff]
    exact or_iff_left fun h => absurd h.2 (List.not_lt_nil _)
  | cons name front ih =>
    rw [List.cons_append, List.cons_append, List.cons_lt_cons_iff, ih]
    simp

theorem Node.FileAt.ne_nil {names : List String} {bytes : ByteArray}
    (h : (Node.folder entries).FileAt names bytes) : names ≠ [] := by
  cases h
  exact List.cons_ne_nil _ _

/-- Files have one fragment name exactly if they are namesakes. -/
theorem Node.FileAt.nameBelow_eq_iff (hnamed : (Node.folder entries).WellNamed)
    {names names' : List String} {bytes bytes' : ByteArray}
    (h : (Node.folder entries).FileAt names bytes) (h' : (Node.folder entries).FileAt names' bytes') :
    nameBelow names = nameBelow names' ↔ Namesakes names names' :=
  Stencil.nameBelow_eq_iff (h.isEntryName hnamed) (h'.isEntryName hnamed) h.ne_nil h'.ne_nil

/-- Under a name stands the text of the last of the files that have it. -/
theorem get?_fragments_iff (hnamed : (Node.folder entries).WellNamed)
    {files : List (List String × ByteArray)} (hfiles : (Node.folder entries).Listing files)
    (name text : String) :
    (Roster.ofList (files.map fun file => (nameBelow file.1, textOf file.2))).get? name = some text
      ↔ ∃ front last bytes, (Node.folder entries).FileAt (front ++ [last]) bytes
        ∧ (Node.folder entries).IsLast front last ∧ nameBelow (front ++ [last]) = name
        ∧ textOf bytes = text := by
  rw [Roster.get?_ofList]
  constructor
  · rintro ⟨before, after, hsplit, hafter⟩
    obtain ⟨files₁, files₂, rfl, -, hrest⟩ := List.map_eq_append_iff.mp hsplit
    obtain ⟨file, files₂, rfl, hfile, rfl⟩ := List.map_eq_cons_iff.mp hrest
    obtain ⟨hname, htext⟩ := Prod.ext_iff.mp hfile
    have hat := (hfiles.mem_iff file).mp (by simp)
    obtain ⟨names, bytes⟩ := file
    obtain ⟨front, last, rfl⟩ := (List.eq_nil_or_concat' names).resolve_left hat.ne_nil
    refine ⟨front, last, bytes, hat, fun other bytes' hother hstem => ?_, hname, htext⟩
    -- The other file is not behind this one, where its name does not occur.
    have hsame : nameBelow (front ++ [other]) = name :=
      ((hother.nameBelow_eq_iff hnamed hat).mpr ⟨front, other, last, rfl, rfl, hstem⟩).trans hname
    have hmem := (hfiles.mem_iff (front ++ [other], bytes')).mpr hother
    rcases List.mem_append.mp hmem with hmem | hmem
    · have hlt := (List.pairwise_append.mp hfiles.sorted).2.2 _ hmem _ List.mem_cons_self
      exact (append_singleton_lt_iff.mp hlt).le
    · rcases List.mem_cons.mp hmem with heq | hmem
      · exact (List.append_singleton_inj.mp (congrArg Prod.fst heq)).2.le
      · refine absurd ?_ hafter
        rw [List.map_map, List.mem_map]
        exact ⟨_, hmem, hsame⟩
  · rintro ⟨front, last, bytes, hat, hlast, rfl, rfl⟩
    obtain ⟨files₁, files₂, rfl⟩ := List.append_of_mem ((hfiles.mem_iff (front ++ [last], bytes)).mpr hat)
    refine ⟨_, _, List.map_append, fun hlater => ?_⟩
    rw [List.map_map, List.mem_map] at hlater
    obtain ⟨file, hmem, hname⟩ := hlater
    have hfile := (hfiles.mem_iff file).mp (by simp [hmem])
    obtain ⟨around, other, last', hother, hthis, hstem⟩ := (hfile.nameBelow_eq_iff hnamed hat).mp hname
    obtain ⟨rfl, rfl⟩ := List.append_singleton_inj.mp hthis
    have hlt : (front ++ [last]) < file.1 :=
      List.rel_of_pairwise_cons (List.pairwise_append.mp hfiles.sorted).2.1 hmem
    rw [hother] at hlt hfile
    exact absurd (append_singleton_lt_iff.mp hlt) (not_lt.mpr (hlast other file.2 hfile hstem))

/-- There are as many fragments as names of files, whatever order the files are counted in. -/
theorem size_fragments (hnamed : (Node.folder entries).WellNamed)
    {files counted : List (List String × ByteArray)} (hfiles : (Node.folder entries).Listing files)
    (hnodup : counted.Nodup)
    (hcounted : ∀ file, file ∈ counted ↔ (Node.folder entries).FileAt file.1 file.2) :
    let fragments := Roster.ofList (files.map fun file => (nameBelow file.1, textOf file.2))
    fragments.size ≤ counted.length
      ∧ (fragments.size = counted.length
        ↔ ∀ file ∈ counted, ∀ file' ∈ counted, Namesakes file.1 file'.1 → file = file') := by
  intro fragments
  let name (file : List String × ByteArray) : String := nameBelow file.1
  have hsize : fragments.size = (counted.map name).toFinset.card := by
    rw [Roster.size_ofList, List.map_map]
    congr 1
    ext other
    simp only [List.mem_toFinset, List.mem_map, hfiles.mem_iff, hcounted]
    rfl
  have hinj : (counted.map name).Nodup
      ↔ ∀ file ∈ counted, ∀ file' ∈ counted, Namesakes file.1 file'.1 → file = file' := by
    rw [List.nodup_map_iff_inj_on hnodup]
    refine forall₂_congr fun file hfile => forall₂_congr fun file' hfile' => ?_
    rw [((hcounted file).mp hfile).nameBelow_eq_iff hnamed ((hcounted file').mp hfile')]
  rw [hsize, ← hinj, List.card_toFinset, ← List.length_map name]
  refine ⟨(List.dedup_sublist _).length_le, fun h => ?_, fun h => by rw [h.dedup]⟩
  exact List.dedup_eq_self.mp ((List.dedup_sublist _).eq_of_length h)

/-- **Loading a folder of fragments** gives every file in sight below it a place under the name of
its fragment, and nothing else.  Under a name stands the text of the file that has it, and of several
files, which are then namesakes, that of the last one; so no file is lost exactly if none have one
name. -/
theorem loadFragments_files (hfolder : d.folder? folder = some entries)
    (hnamed : (Node.folder entries).WellNamed)
    (htexts : ∀ names bytes, (Node.folder entries).FileAt names bytes →
      ∃ text, Disk.decode bytes = .ok text) :
    ∃ fragments, loadFragments d folder = .ok fragments
      ∧ (∀ names bytes, (Node.folder entries).FileAt names bytes →
        ∃ name, fragmentName (pathTo folder names) folder = .ok name ∧ fragments.contains name = true)
      ∧ (∀ name text, fragments.get? name = some text ↔
        ∃ front last bytes, (Node.folder entries).FileAt (front ++ [last]) bytes
          ∧ (Node.folder entries).IsLast front last
          ∧ fragmentName (pathTo folder (front ++ [last])) folder = .ok name
          ∧ Disk.decode bytes = .ok text)
      ∧ (∀ names bytes names' bytes', (Node.folder entries).FileAt names bytes →
        (Node.folder entries).FileAt names' bytes' →
        (fragmentName (pathTo folder names) folder = fragmentName (pathTo folder names') folder
          ↔ Namesakes names names'))
      ∧ ∀ files : List (List String × ByteArray), files.Nodup →
        (∀ file, file ∈ files ↔ (Node.folder entries).FileAt file.1 file.2) →
        fragments.size ≤ files.length
          ∧ (fragments.size = files.length
            ↔ ∀ file ∈ files, ∀ file' ∈ files, Namesakes file.1 file'.1 → file = file') := by
  obtain ⟨files, hfiles⟩ := hnamed.listing
  have hname {names : List String} {bytes : ByteArray}
      (h : (Node.folder entries).FileAt names bytes) :
      fragmentName (pathTo folder names) folder = .ok (nameBelow names) :=
    fragmentName_pathTo (h.isEntryName hnamed) folder
  refine ⟨_, loadFragments_eq hfolder hnamed htexts hfiles, fun names bytes hfile => ?_,
    fun name text => ?_, fun names bytes names' bytes' hfile hfile' => ?_,
    fun counted hnodup hcounted => size_fragments hnamed hfiles hnodup hcounted⟩
  · refine ⟨_, hname hfile, (Cache.lookupName_isSome _).mpr ?_⟩
    refine (Roster.mem_names_insertAll _ _ _).mpr (.inr ?_)
    rw [List.map_map, List.mem_map]
    exact ⟨(names, bytes), (hfiles.mem_iff _).mpr hfile, rfl⟩
  · rw [get?_fragments_iff hnamed hfiles]
    refine exists₃_congr fun front last bytes => and_congr_right fun hfile =>
      and_congr_right fun _ => ?_
    obtain ⟨other, hother⟩ := htexts _ _ hfile
    rw [hname hfile, hother, textOf_eq hother, Except.ok.injEq, Except.ok.injEq]
  · rw [hname hfile, hname hfile', Except.ok.injEq]
    exact hfile.nameBelow_eq_iff hnamed hfile'

/-- A folder with a file, a hidden one, and one in a folder of it. -/
def shelf : List (String × Node) :=
  [("card.b.html", .file "C".toUTF8), (".card", .file "X".toUTF8),
    ("user", .folder [("card.tpl", .file "U".toUTF8)])]

theorem wellNamed_shelf : (Node.folder shelf).WellNamed := by
  have isName {name : String} (h : name ≠ "" ∧ name ≠ "." ∧ name ≠ ".." ∧ '/' ∉ name.toList) :
      IsEntryName name := ⟨h.1, h.2.1, h.2.2.1, h.2.2.2⟩
  have hinner : (Node.folder [("card.tpl", .file "U".toUTF8)]).WellNamed := by
    refine .folder (fun entry hentry => ?_) (by decide) fun entry hentry => ?_
    all_goals
      cases List.mem_singleton.mp hentry
    · exact isName (by decide)
    · exact .file _
  refine .folder (fun entry hentry => ?_) (by decide) fun entry hentry => ?_
  all_goals
    simp only [shelf, List.mem_cons, List.not_mem_nil, or_false] at hentry
    rcases hentry with rfl | rfl | rfl
  · exact isName (by decide)
  · exact isName (by decide)
  · exact isName (by decide)
  · exact .file _
  · exact .file _
  · exact hinner

theorem fileAt_shelf_iff {names : List String} {bytes : ByteArray} :
    (Node.folder shelf).FileAt names bytes
      ↔ (names, bytes) = (["card.b.html"], "C".toUTF8)
        ∨ (names, bytes) = (["user", "card.tpl"], "U".toUTF8) := by
  have hhidden : isHidden ".card" = true ∧ isHidden "card.b.html" = false
      ∧ isHidden "user" = false ∧ isHidden "card.tpl" = false := by decide
  simp [Node.fileAt_folder_iff, Node.fileAt_file_iff, shelf, hhidden]

theorem loadFragments_files_shelf :
    ∃ fragments, loadFragments { root := .folder [("d", .folder shelf)] } "d" = .ok fragments
      ∧ fragments.get? "card.b" = some "C" ∧ fragments.get? "user/card" = some "U"
      ∧ fragments.size = 2 := by
  have hfolder : Disk.folder? { root := .folder [("d", .folder shelf)] } "d" = some shelf := rfl
  obtain ⟨fragments, hload, -, hget, -, hsize⟩ :=
    loadFragments_files hfolder wellNamed_shelf fun names bytes hfile => by
      rcases fileAt_shelf_iff.mp hfile with h | h <;> cases h
      · exact ⟨"C", by decide +kernel⟩
      · exact ⟨"U", by decide +kernel⟩
  refine ⟨fragments, hload, (hget _ _).mpr ?_, (hget _ _).mpr ?_, ?_⟩
  · refine ⟨[], "card.b.html", _, fileAt_shelf_iff.mpr (.inl rfl), fun other bytes hother _ => ?_,
      by decide +kernel, by decide +kernel⟩
    have hother := fileAt_shelf_iff.mp hother
    simp at hother
    exact hother.1.le
  · refine ⟨["user"], "card.tpl", _, fileAt_shelf_iff.mpr (.inr rfl), fun other bytes hother _ => ?_,
      by decide +kernel, by decide +kernel⟩
    have hother := fileAt_shelf_iff.mp hother
    simp at hother
    exact hother.1.le
  · have hcount := hsize [(["card.b.html"], "C".toUTF8), (["user", "card.tpl"], "U".toUTF8)]
      (by decide +kernel) fun file => by simp [fileAt_shelf_iff, Prod.ext_iff]
    refine hcount.2.mpr fun file hfile file' hfile' hsame => ?_
    have hlength := hsame.length_eq
    simp only [List.mem_cons, List.not_mem_nil, or_false] at hfile hfile'
    -- The files lie at different depths.
    rcases hfile with rfl | rfl <;> rcases hfile' with rfl | rfl
    · rfl
    · cases hlength
    · cases hlength
    · rfl

/-- **A file that is lost.**  Both files of the folder are the fragment `a`. -/
theorem loadFragments_sameStem :
    (loadFragments { root := .folder [("d", .folder [("a.html", .file "1".toUTF8),
      ("a.txt", .file "2".toUTF8)])] } "d").map Roster.entries = .ok [("a", "2")] := by
  have hfiles : filesBelow "d" (.folder [("a.html", .file "1".toUTF8), ("a.txt", .file "2".toUTF8)])
      = [("d/a.html", "1".toUTF8), ("d/a.txt", "2".toUTF8)] := by
    have hsorted : Node.seenEntries [("a.html", .file "1".toUTF8), ("a.txt", .file "2".toUTF8)]
        = [("a.html", .file "1".toUTF8), ("a.txt", .file "2".toUTF8)] :=
      List.mergeSort_of_pairwise (by decide +kernel)
    rw [Node.filesBelow_folder, hsorted]
    decide +kernel
  rw [loadFragments]
  show ((filesBelow "d" _).mapM (loadFragment "d") >>= fun pairs => pure (Roster.ofList pairs)).map
    Roster.entries = _
  rw [hfiles]
  decide +kernel

end Stencil
