import Stencil.Files.Disk
import Stencil.Roster

/-!
# Folders of fragments

Every file below a folder is a fragment, unless its name or that of a folder on the way begins with
a dot.  Files come in the order of their names, a folder in the place that its own name has.

* `filesBelow` — the files below a node, with their paths;
* `loadFragments` — the fragments of a folder: of two that have one name the later gives the text.
-/

namespace Stencil

/-- Whether a name is kept out of sight. -/
def isHidden (name : String) : Bool := Text.startsWith ['.'] name.toList

mutual

/-- The files at and below a node that is found at a path, in order. -/
def filesBelow (path : String) : Node → List (String × ByteArray)
  | .file bytes => [(path, bytes)]
  | .folder entries =>
    ((filesInEach path entries).mergeSort fun a b => !decide (b.1 < a.1)).flatMap Prod.snd

/-- The files at and below each entry of a folder, with the name of the entry. -/
def filesInEach (path : String) : List (String × Node) → List (String × List (String × ByteArray))
  | [] => []
  | (name, node) :: rest =>
    if isHidden name then filesInEach path rest
    else (name, filesBelow (joinPath path name) node) :: filesInEach path rest

end

/-- The name and text of the fragment in a file below a folder. -/
def loadFragment (folder : String) (file : String × ByteArray) :
    Except Error (String × String) := do
  let name ← fragmentName file.1 folder
  match Disk.decode file.2 with
  | .ok text => return (name, text)
  | .error fault => throw (.file fault)

/-- The fragments in the folder at a path. -/
def loadFragments (d : Disk) (folder : String) : Except Error (Roster String) :=
  match d.folder? folder with
  | none => .error (.config (.noFolder folder))
  | some entries => do
    return .ofList (← (filesBelow folder (.folder entries)).mapM (loadFragment folder))

end Stencil
