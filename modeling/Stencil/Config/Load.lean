import Stencil.Config.FromJson
import Stencil.Config.FromYaml

/-!
# Configurations of folders

A folder has the configuration that the first of the files named in `configNames` gives, if one of
them is there.

* `Config.file?` — the file that counts;
* `Config.load` — the configuration, checked, with its folders seen from the folder of the file.
-/

namespace Stencil.Config

/-- The name of the configuration file of a folder. -/
def file? (d : Disk) (folder : String) : Option String :=
  configNames.find? fun name => d.contains (joinPath folder name)

/-- The configuration that a text gives, in the format that belongs to the name of its file. -/
def ofText (name text : String) : Except Error Config :=
  if extension? name = some "json" then ofJsonText text else ofYamlText text

/-- The configuration of a folder. -/
def load (d : Disk) (folder : String) : Except Error Config := do
  match file? d folder with
  | none => throw (.noConfig folder)
  | some name =>
    let text ← (d.readText (joinPath folder name)).mapError .file
    let c ← ofText name text
    c.validate
    return c.resolve folder

end Stencil.Config
