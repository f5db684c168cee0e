import Stencil.Files.Path

/-!
# Files and folders

A disk is a tree of folders with files in them, and one folder in it is the current one, from which
paths that do not begin at the root are followed.

* `Node`, `Disk` — the tree;
* `Disk.find` — what is at a path;
* `Disk.readText`, `Disk.folder?` — the text of a file, and what is in a folder;
* `Disk.write` — a file comes in or is replaced.
-/

namespace Stencil

/-- A file or folder. -/
inductive Node where
  /-- A file with its bytes. -/
  | file (bytes : ByteArray)
  /-- A folder with what is in it, by name. -/
  | folder (entries : List (String × Node))

instance : Inhabited Node := ⟨.folder []⟩

/-- A tree of files and folders. -/
structure Disk where
  /-- The root of the tree. -/
  root : Node := .folder []
  /-- The pieces of the path from the root to the current folder. -/
  here : List String := []

instance : Inhabited Disk := ⟨{}⟩

/-- What was passed on the way to a node, the node itself in front, with the names it was found
under. -/
abbrev Trail : Type := List (String × Node)

/-- Whether the node at the front of a trail is a folder, the root being one without being named. -/
def Trail.folder? (root : Node) : Trail → Except FileFault (List (String × Node))
  | [] =>
    match root with
    | .folder entries => .ok entries
    | .file _ => .error .throughFile
  | (_, .folder entries) :: _ => .ok entries
  | (_, .file _) :: _ => .error .throughFile

/-- Follows one piece of a path. -/
def Trail.follow (root : Node) (trail : Trail) (piece : String) : Except FileFault Trail := do
  let entries ← trail.folder? root
  if piece = "" || piece = "." then return trail
  else if piece = ".." then return trail.drop 1
  else
    match entries.lookup piece with
    | some node => return (piece, node) :: trail
    | none => throw .missing

namespace Disk

/-- The trail of a path. -/
def trail (d : Disk) (path : String) : Except FileFault Trail := do
  if path.isEmpty then throw .missing
  let start ← if isAbsolute path then pure [] else d.here.foldlM (Trail.follow d.root) []
  (pathPieces path).foldlM (Trail.follow d.root) start

/-- What is at a path. -/
def find (d : Disk) (path : String) : Except FileFault Node := do
  match ← d.trail path with
  | [] => return d.root
  | (_, node) :: _ => return node

/-- Whether something is at a path. -/
def contains (d : Disk) (path : String) : Bool :=
  match d.find path with
  | .ok _ => true
  | .error _ => false

/-- The names that lead from the root to a path, if every name on the way is that of a folder. -/
def namesTo (d : Disk) (path : String) : List String :=
  (pathPieces path).foldl
    (fun names piece =>
      if piece = "" || piece = "." then names
      else if piece = ".." then names.dropLast
      else names ++ [piece])
    (if isAbsolute path then [] else d.here)

/-- The text that bytes encode. -/
def decode (bytes : ByteArray) : Except FileFault String :=
  match String.fromUTF8? bytes with
  | some s => .ok s
  | none => .error .encoding

/-- The text of the file at a path. -/
def readText (d : Disk) (path : String) : Except FileFault String := do
  match ← d.find path with
  | .file bytes => decode bytes
  | .folder _ => throw .folder

/-- What is in the folder at a path, if a folder is there. -/
def folder? (d : Disk) (path : String) : Option (List (String × Node)) :=
  match d.find path with
  | .ok (.folder entries) => some entries
  | _ => none

end Disk

/-! ### Changes -/

/-- Entries with one more, in the place of one that has its name. -/
def putEntry (name : String) (node : Node) : List (String × Node) → List (String × Node)
  | [] => [(name, node)]
  | (key, old) :: rest =>
    if key = name then (name, node) :: rest else (key, old) :: putEntry name node rest

/-- A tree with a node at the end of a path of names.  Folders are made on the way where nothing is,
and files on the way give place to them. -/
def Node.put : Node → List String → Node → Node
  | _, [], new => new
  | .folder entries, name :: names, new =>
    .folder (putEntry name (Node.put ((entries.lookup name).getD (.folder [])) names new) entries)
  | .file _, name :: names, new => .folder [(name, Node.put (.folder []) names new)]

namespace Disk

/-- The disk with a node at the end of a path of names from the root. -/
def put (d : Disk) (names : List String) (node : Node) : Disk :=
  { d with root := d.root.put names node }

/-- The path of names that a trail followed. -/
def namesOf (trail : Trail) : List String := (trail.map Prod.fst).reverse

/-- The disk after writing a text into the file at a path. -/
def write (d : Disk) (path text : String) : Except FileFault Disk := do
  let pieces := pathPieces path
  let last := pieces.getLast?.getD ""
  match d.trail path with
  | .ok [] => throw .folder
  | .ok ((name, .file _) :: trail) =>
    return d.put (namesOf trail ++ [name]) (.file text.toUTF8)
  | .ok ((_, .folder _) :: _) => throw .folder
  | .error .missing =>
    if last.isEmpty then throw (if path.isEmpty then .missing else .folder)
    else
      let start ← if isAbsolute path then pure [] else d.here.foldlM (Trail.follow d.root) []
      let around ← (pieces.dropLast).foldlM (Trail.follow d.root) start
      let _ ← around.folder? d.root
      return d.put (namesOf around ++ [last]) (.file text.toUTF8)
  | .error fault => throw fault

end Disk

end Stencil
