import Stencil.Error
import Stencil.Text.Search

/-!
# Paths

A path is a text whose parts stand between slashes.

* `pathParts` — the parts of a path; empty parts do not count, nor does a dot behind another part;
* `joinPath` — a path as it is seen from a folder;
* `withoutExtension`, `extension?` — the name of a file and its extension;
* `fragmentName` — the name of the fragment that is stored at a path below a root.
-/

namespace Stencil

/-- A part of a path. -/
inductive PathPart where
  /-- The root of all folders. -/
  | root
  /-- The folder itself. -/
  | here
  /-- The folder around. -/
  | up
  /-- What has this name. -/
  | name (s : String)
  deriving DecidableEq, Repr

/-- A part as it is written. -/
def PathPart.text : PathPart → String
  | .root => "/"
  | .here => "."
  | .up => ".."
  | .name s => s

/-- What stands between the slashes of a path. -/
def pathPieces (path : String) : List String :=
  (Text.pieces ['/'] path.toList).map String.ofList

/-- Whether a path begins at the root. -/
def isAbsolute (path : String) : Bool := Text.startsWith ['/'] path.toList

/-- The part that a piece is, if it counts. -/
def pathPart? (piece : String) : Option PathPart :=
  if piece = "" || piece = "." then none
  else if piece = ".." then some .up
  else some (.name piece)

/-- What a path begins with before its first name. -/
def pathStart (path : String) : List PathPart :=
  if isAbsolute path then [.root]
  else if (pathPieces path).head? = some "." then [.here]
  else []

/-- The parts of a path. -/
def pathParts (path : String) : List PathPart :=
  pathStart path ++ (pathPieces path).filterMap pathPart?

/-- A path as it is seen from a folder. -/
def joinPath (folder path : String) : String :=
  if isAbsolute path then path
  else if folder.isEmpty || Text.endsWith ['/'] folder.toList then folder ++ path
  else folder ++ "/" ++ path

/-! ### Extensions -/

/-- What stands in front of and behind the last dot of a name, if there is a dot and something in
front of it. -/
def splitExtension? (name : String) : Option (String × String) :=
  let backward := name.toList.reverse
  let extension := (backward.takeWhile (· != '.')).reverse
  match backward.dropWhile (· != '.') with
  | _ :: front :: rest => some (String.ofList (front :: rest).reverse, String.ofList extension)
  | _ => none

/-- The name of a file without its extension.  If only a dot would be left, two are. -/
def withoutExtension (name : String) : String :=
  match splitExtension? name with
  | some (front, _) => if front = "." then ".." else front
  | none => name

/-- The extension of the file at a path. -/
def extension? (path : String) : Option String :=
  match (pathParts path).getLast? with
  | some (.name s) => (splitExtension? s).map (·.2)
  | _ => none

/-! ### Fragments -/

/-- The parts of a path that follow those of a root, if the path begins with them. -/
def partsBelow? : List PathPart → List PathPart → Option (List PathPart)
  | [], parts => some parts
  | _ :: _, [] => none
  | r :: root, p :: parts => if r = p then partsBelow? root parts else none

/-- Parts as they are written, the last of them without its extension if it is a name. -/
def stemmed : List PathPart → List String
  | [] => []
  | [.name s] => [withoutExtension s]
  | p :: ps => p.text :: stemmed ps

/-- The name of the fragment at a path below a root. -/
def fragmentName (path root : String) : Except Error String :=
  match partsBelow? (pathParts root) (pathParts path) with
  | some parts => .ok ("/".intercalate (stemmed parts))
  | none => .error (.outside path root)

end Stencil
