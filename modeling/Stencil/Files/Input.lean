import Stencil.Engine.Render
import Stencil.Files.Disk
import Stencil.Text.Blank
import Stencil.Yaml.ToJson

/-!
# Templates and data from files

* `loadData` — the data for a template, from a text that is given at once, from the input of the
  program, or from a file;
* `Engine.renderFile` — what the template in a file renders to.
-/

namespace Stencil

/-- The text in place of data that says where the data come from: the input of the program. -/
def inputMark : String := "-"

/-- The data that a text gives, which are empty if it is blank. -/
def parseData (text : String) : Except Error Json :=
  if (Text.trimText text).isEmpty then .ok (.object []) else (Json.read text).mapError .json

/-- The data in the file at a path. -/
def loadDataFile (d : Disk) (path : String) : Except Error Json := do
  let text ← (d.readText path).mapError .file
  if (extension? path).any ["yaml", "yml"].contains then (Yaml.readJson text).mapError .yaml
  else parseData text

/-- The data that a text or else a file gives; `input` is the input of the program. -/
def loadData (d : Disk) (input : ByteArray) (inline file : Option String) : Except Error Json :=
  match inline, file with
  | some text, _ => do
    parseData (← if text = inputMark then (Disk.decode input).mapError .file else pure text)
  | none, some path => loadDataFile d path
  | none, none => .ok (.object [])

/-- What the template in the file at a path renders to. -/
def Engine.renderFile (e : Engine) (bound : Nat) (d : Disk) (path : String) (data : Json) :
    Except Error String × Engine :=
  match d.readText path with
  | .ok template => e.render bound (some template) data
  | .error fault => (.error (.file fault), e)

end Stencil
