import Stencil.CommandLine.Perform

/-!
# The program

The program follows its command line.  What the run may look at is taken from the file system first,
so that the run itself is a function of it.
-/

namespace Stencil

/-- How a command line is built. -/
def usage : String :=
  "Usage: stencil [OPTIONS] <TEMPLATE_FILE>\n\n"
    ++ "  -d, --data <DATA>       data as a JSON text, or - for the input of the program\n"
    ++ "      --data-file <PATH>  data file (.json, .yaml or .yml)\n"
    ++ "  -c, --config <DIR>      folder of the configuration\n"
    ++ "      --strict            fail on names that are not in the data\n"
    ++ "  -o, --output <PATH>     write the text to a file\n"
    ++ "  -v, --verbose           tell more\n"
    ++ "  -h, --help              print this text\n"
    ++ "  -V, --version           print the version"

/-- A usage fault in words. -/
def UsageFault.message : UsageFault → String
  | .missing => "the template is missing"
  | .unknown => "there is an unknown word"
  | .conflict => "two words exclude each other"
  | .value => "an option has no value"
  | .needlessValue => "a flag has a value"
  | .help => usage
  | .version => "stencil 1"

/-- What is at a path, with everything below it. -/
partial def snapshot (path : String) : IO (Option Node) := do
  let place := (← IO.currentDir) / path
  if ← place.isDir then
    let mut entries := []
    for entry in ← place.readDir do
      if let some node ← snapshot (joinPath path entry.fileName) then
        entries := (entry.fileName, node) :: entries
    return some (.folder entries)
  else if ← place.pathExists then return some (.file (← IO.FS.readBinFile place))
  else return none

/-- The disk with what is at a path in the file system. -/
def take (d : Disk) (path : String) : IO Disk := do
  match ← snapshot path with
  | some node => return d.put (d.namesTo path) node
  | none => return d

/-- The disk with the folder of a path, as empty as it can be written to. -/
def takeFolder (d : Disk) (path : String) : IO Disk := do
  let around := (d.namesTo path).dropLast
  let place := (← IO.currentDir) / ("/" ++ "/".intercalate around)
  if ← place.isDir then return d.put around (.folder []) else return d

/-- The disk with all that a run may look at. -/
def gather (a : Arguments) : IO Disk := do
  let here := (pathPieces (← IO.currentDir).toString).filter (· ≠ "")
  let mut d : Disk := { ({} : Disk).put here (.folder []) with here := here }
  for path in a.output.toList do
    d ← takeFolder d path
    d ← take d path
  for folder in a.config.toList do
    for name in configNames do
      d ← take d (joinPath folder name)
  if let .ok c := a.loadConfig d then
    for folder in c.fragmentFolder.toList ++ c.layoutFolder.toList do
      d ← take d folder
  for path in a.template :: a.dataFile.toList do
    d ← take d path
  return d

/-- How many steps a run may take. -/
def stepLimit : Nat := 1000000000

/-- Does what the command line asks for. -/
def follow (a : Arguments) : IO UInt32 := do
  let input ← if a.data = some inputMark then (← IO.getStdin).readBinToEnd else pure .empty
  match a.perform stepLimit (← gather a) input with
  | .ok (printed, d) =>
    match a.output with
    | some path =>
      if let .ok text := d.readText path then IO.FS.writeFile path text
    | none => IO.print printed
    return 0
  | .error e =>
    IO.eprintln e.message
    return 1

end Stencil

open Stencil in
/-- Follows the command line. -/
def main (words : List String) : IO UInt32 := do
  match Arguments.parse ("stencil" :: words) with
  | .ok a => follow a
  | .error fault =>
    if fault = .help || fault = .version then
      IO.println fault.message
      return 0
    else
      IO.eprintln ("error: " ++ fault.message ++ "\n\n" ++ usage)
      return 2
