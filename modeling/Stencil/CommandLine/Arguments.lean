import Stencil.Text.Search

/-!
# Command lines

The words of a command line name the template, and options and flags in between.  An option takes a
value, which is attached to it or is the next word; a flag takes none.

* `Arguments` — what a command line asks for;
* `UsageFault` — why a command line cannot be followed;
* `readWord` — what one more word adds;
* `Arguments.parse` — what all words together ask for.
-/

namespace Stencil

/-- What a command line asks for. -/
structure Arguments where
  /-- The path of the template. -/
  template : String
  /-- The data as a text. -/
  data : Option String := none
  /-- The path of the data. -/
  dataFile : Option String := none
  /-- The path of the folder with the configuration. -/
  config : Option String := none
  /-- Whether the data scope is guarded. -/
  strict : Bool := false
  /-- The path that the text is written to. -/
  output : Option String := none
  /-- How often more messages were asked for. -/
  verbosity : Nat := 0
  deriving DecidableEq, Repr

/-- How much is told about a run. -/
inductive MessageLevel where
  | error
  | info
  | debug
  | trace
  deriving DecidableEq, Repr

/-- How much the command line wants to be told. -/
def Arguments.level (a : Arguments) : MessageLevel :=
  match a.verbosity with
  | 0 => .error
  | 1 => .info
  | 2 => .debug
  | _ => .trace

/-- Why a command line cannot be followed. -/
inductive UsageFault where
  /-- The template is missing. -/
  | missing
  /-- A word is not known, or there is no place for it. -/
  | unknown
  /-- Two words exclude each other. -/
  | conflict
  /-- An option has no value, or one that cannot be. -/
  | value
  /-- A flag has a value. -/
  | needlessValue
  /-- Help is wanted instead. -/
  | help
  /-- The version is wanted instead. -/
  | version
  deriving DecidableEq, Repr

namespace CommandLine

/-- What takes a value. -/
inductive Slot where
  | template
  | data
  | dataFile
  | config
  | output
  deriving DecidableEq, Repr

/-- Whether the value is a path, which cannot be empty. -/
def Slot.isPath : Slot → Bool
  | .data => false
  | _ => true

/-- What takes no value. -/
inductive Flag where
  | strict
  | verbose
  | help
  | version
  deriving DecidableEq, Repr

/-- What a word can name. -/
inductive Named where
  /-- An option with a value. -/
  | option (slot : Slot)
  /-- A flag. -/
  | flag (f : Flag)
  deriving DecidableEq, Repr

/-- What a long name stands for. -/
def longName? : String → Option Named
  | "data" => some (.option .data)
  | "data-file" => some (.option .dataFile)
  | "config" => some (.option .config)
  | "output" => some (.option .output)
  | "strict" => some (.flag .strict)
  | "verbose" => some (.flag .verbose)
  | "help" => some (.flag .help)
  | "version" => some (.flag .version)
  | _ => none

/-- What a letter stands for. -/
def letter? : Char → Option Named
  | 'd' => some (.option .data)
  | 'c' => some (.option .config)
  | 'o' => some (.option .output)
  | 'v' => some (.flag .verbose)
  | 'h' => some (.flag .help)
  | 'V' => some (.flag .version)
  | _ => none

/-- The most that repeated requests for messages count. -/
def verbosityLimit : Nat := 255

/-- What was read of a command line. -/
structure Draft where
  /-- The values by what takes them. -/
  values : List (Slot × String) := []
  /-- Whether the data scope is guarded. -/
  strict : Bool := false
  /-- How often more messages were asked for. -/
  verbosity : Nat := 0
  /-- What waits for its value, or has one that was not looked at yet. -/
  pending : Option (Slot × Option String) := none
  /-- Whether the template was named. -/
  named : Bool := false
  /-- Whether all further words are taken as they are. -/
  verbatim : Bool := false

namespace Draft

/-- Takes a value in. -/
def put (d : Draft) (slot : Slot) (value : String) : Except UsageFault Draft :=
  if (d.values.lookup slot).isSome then .error .conflict
  else if slot.isPath && value.isEmpty then .error .value
  else .ok { d with values := (slot, value) :: d.values }

/-- Takes in what is pending. -/
def settle (d : Draft) : Except UsageFault Draft :=
  match d.pending with
  | none => .ok d
  | some (_, none) => .error .value
  | some (slot, some value) => { d with pending := none }.put slot value

/-- Reads a flag. -/
def readFlag (d : Draft) (f : Flag) : Except UsageFault Draft := do
  let d ← d.settle
  match f with
  | .strict => if d.strict then throw .conflict else return { d with strict := true }
  | .verbose => return { d with verbosity := min verbosityLimit (d.verbosity + 1) }
  | .help => throw .help
  | .version => throw .version

/-- Reads an option, given the value that is attached to it. -/
def readOption (d : Draft) (slot : Slot) (attached : Option String) : Except UsageFault Draft := do
  let d ← d.settle
  match attached with
  | some value => d.put slot value
  | none => return { d with pending := some (slot, none) }

/-- Reads a long name, given the value that is attached to it. -/
def readLong (d : Draft) (name : String) (attached : Option String) : Except UsageFault Draft :=
  match longName? name with
  | some (.option slot) => d.readOption slot attached
  | some (.flag f) => if attached.isSome then .error .needlessValue else d.readFlag f
  | none => .error .unknown

/-- The value that follows the letter of an option. -/
def attachedValue? : List Char → Option String
  | [] => none
  | '=' :: value => some (String.ofList value)
  | value => some (String.ofList value)

/-- Reads letters, each of which stands for a flag up to one that takes the rest as its value. -/
def readLetters (d : Draft) : List Char → Except UsageFault Draft
  | [] => .ok d
  | c :: cs =>
    match letter? c with
    | some (.option slot) => d.readOption slot (attachedValue? cs)
    | some (.flag f) => do (← d.readFlag f).readLetters cs
    | none => .error .unknown

/-- Reads a word that names no option. -/
def readPlain (d : Draft) (word : String) : Except UsageFault Draft := do
  if d.named then throw .unknown
  let d ← d.settle
  return { d with named := true, pending := some (.template, some word) }

/-- Reads a word that may be the value of the option in front of it. -/
def readValue (d : Draft) (word : String) : Except UsageFault Draft :=
  match d.pending with
  | some (slot, none) => .ok { d with pending := some (slot, some word) }
  | _ => d.readPlain word

/-- Reads a word. -/
def readWord (d : Draft) (word : String) : Except UsageFault Draft :=
  if d.verbatim then d.readPlain word
  else
    match word.toList with
    | ['-', '-'] => .ok { d with verbatim := true }
    | '-' :: '-' :: cs =>
      match Text.cut ['='] cs with
      | some (name, value) => d.readLong (String.ofList name) (some (String.ofList value))
      | none => d.readLong (String.ofList cs) none
    | '-' :: c :: cs => d.readLetters (c :: cs)
    | _ => d.readValue word

/-- What the words that were read ask for. -/
def finish (d : Draft) : Except UsageFault Arguments := do
  let d ← d.settle
  let value? (slot : Slot) := d.values.lookup slot
  if (value? .data).isSome && (value? .dataFile).isSome then throw .conflict
  match value? .template with
  | none => throw .missing
  | some template =>
    return {
      template
      data := value? .data
      dataFile := value? .dataFile
      config := value? .config
      strict := d.strict
      output := value? .output
      verbosity := d.verbosity }

end Draft

end CommandLine

/-- What the words of a command line ask for, the first of which names the program. -/
def Arguments.parse (words : List String) : Except UsageFault Arguments := do
  (← (words.drop 1).foldlM CommandLine.Draft.readWord {}).finish

end Stencil
