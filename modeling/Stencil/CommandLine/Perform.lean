import Stencil.CommandLine.Arguments
import Stencil.Config.Load
import Stencil.Files.Input

/-!
# What a command line does

The engine is made from the configuration, the data are loaded, the template is rendered, and its
text is printed or written to a file.

* `Arguments.loadConfig` — the configuration that counts;
* `Arguments.rendered` — the text of the template;
* `Arguments.perform` — the text that is printed, and the disk afterwards.
-/

namespace Stencil.Arguments

/-- The configuration of the folder that is named, if one is, made strict if that is asked for. -/
def loadConfig (a : Arguments) (d : Disk) : Except Error Config := do
  let c ←
    match a.config with
    | some folder => Config.load d folder
    | none => pure {}
  return { c with strict := c.strict || a.strict }

/-- The text of the template; `input` is the input of the program and `bound` limits the steps. -/
def rendered (a : Arguments) (bound : Nat) (d : Disk) (input : ByteArray) :
    Except Error String := do
  let e ← (← a.loadConfig d).build d Engine.create
  let data ← loadData d input a.data a.dataFile
  (e.renderFile bound d a.template data).1

/-- The text that is printed and the disk afterwards. -/
def perform (a : Arguments) (bound : Nat) (d : Disk) (input : ByteArray) :
    Except Error (String × Disk) := do
  let text ← a.rendered bound d input
  match a.output with
  | some path => return ("", ← (d.write path text).mapError .file)
  | none => return (text, d)

end Stencil.Arguments
