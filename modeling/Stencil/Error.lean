import Stencil.Routine.Failure
import Stencil.Yaml.Basic

/-!
# Errors

* `FileFault` — why a file cannot be read or written;
* `ConfigFault` — why a configuration makes no sense;
* `Error` — everything that can go wrong between a request and its answer, with its wording in
  `Error.message`.
-/

namespace Stencil

/-- Why a file cannot be read or written. -/
inductive FileFault where
  /-- Nothing is there. -/
  | missing
  /-- A folder is there. -/
  | folder
  /-- The path leads through a file. -/
  | throughFile
  /-- The bytes are no text. -/
  | encoding
  /-- The system complains in its own words. -/
  | reported (message : String)
  deriving DecidableEq, Repr

/-- The fault in words. -/
def FileFault.message : FileFault → String
  | .missing => "No such file or directory (os error 2)"
  | .folder => "Is a directory (os error 21)"
  | .throughFile => "Not a directory (os error 20)"
  | .encoding => "stream did not contain valid UTF-8"
  | .reported message => message

/-- Why a configuration makes no sense. -/
inductive ConfigFault where
  /-- There is no room for a routine. -/
  | cacheBound
  /-- The locale has no name. -/
  | blankLocale
  /-- The folder of fragments or layouts is not there. -/
  | noFolder (path : String)
  deriving DecidableEq, Repr

/-- The fault in words. -/
def ConfigFault.message : ConfigFault → String
  | .cacheBound => "max_cache must be greater than zero"
  | .blankLocale => "locale must not be empty"
  | .noFolder path => "fragment directory '" ++ path ++ "' does not exist"

/-- The names of configuration files, the first of which that is there counts. -/
def configNames : List String := ["tinplate.json", "tinplate.yaml", "tinplate.yml"]

/-- A part of an engine that must be installed before it can be asked. -/
inductive Feature where
  | fragments
  | layouts
  | helpers
  | messages
  deriving DecidableEq, Repr

/-- The name of a feature. -/
def Feature.text : Feature → String
  | .fragments => "partials"
  | .layouts => "layout"
  | .helpers => "helpers"
  | .messages => "i18n"

/-- What can go wrong between a request and its answer. -/
inductive Error where
  /-- There is no template. -/
  | missingTemplate
  /-- The routine of the template has a fault. -/
  | compile (e : Routine.SyntaxError)
  /-- The routine failed. -/
  | render (f : Routine.Failure)
  /-- The feature is not installed. -/
  | notInstalled (feature : Feature)
  /-- A file cannot be read or written. -/
  | file (fault : FileFault)
  /-- A text is not in the JSON format, or does not say what it should. -/
  | json (e : Json.ReadError)
  /-- A text is not in the YAML format, or does not say what it should. -/
  | yaml (fault : Yaml.Fault)
  /-- The configuration makes no sense. -/
  | config (fault : ConfigFault)
  /-- A folder has no configuration. -/
  | noConfig (folder : String)
  /-- A path does not lead into the folder that it should. -/
  | outside (path root : String)
  /-- The run was given up. -/
  | endless
  deriving DecidableEq

/-- The error in words. -/
def Error.message : Error → String
  | .missingTemplate => "template required"
  | .compile e => "Compilation failed: " ++ e.message
  | .render f => "Render failed: " ++ f.message
  | .notInstalled feature => "Plugin '" ++ feature.text ++ "' is not installed on this engine."
  | .file fault => "IO error: " ++ fault.message ++ "."
  | .json e => "Failed to parse JSON. Original error: " ++ e.message
  | .yaml fault => "Failed to parse YAML. Original error: " ++ fault.message
  | .config fault => "Configuration error: " ++ fault.message ++ "."
  | .noConfig folder =>
    "No configuration file found in '" ++ folder ++ "'. Tried: "
      ++ ", ".intercalate configNames ++ "."
  | .outside path root => "Path '" ++ path ++ "' is not inside '" ++ root ++ "'"
  | .endless => "Render failed: the run has no end"

end Stencil
