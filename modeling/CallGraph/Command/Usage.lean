import CallGraph.Command.Arguments
import CallGraph.Command.Basic
import CallGraph.Number.Decimal

/-!
# Usage

How commands are written.  Some options belong to every command and may stand before its name as
well; there a settings file can also be named by a variable of the environment, which counts least.
-/

namespace CallGraph

namespace Usage

/-- The name of the tool. -/
def tool : String := "depgraph"

/-- The version of the tool. -/
def version : String := "0.1.0"

/-- The name of the variable of the environment that names a settings file. -/
def settingsVariable : String := "DEPGRAPH_CONFIG"

/-! ## Values -/

/-- Reads a whole number of 64 bits, which may have a plus sign. -/
def number? (word : String) : Option Nat :=
  let ds := match word.toList with
    | '+' :: ds => ds
    | ds => ds
  let n := Number.ofDigits ds
  if !ds.isEmpty && ds.all Char.isDigit && n < Nat.pow 2 64 then some n else none

/-- Reads a format. -/
def format? (word : String) : Option Format :=
  (Format.ofText word).toOption

/-- Reads a level of detail. -/
def detail? (word : String) : Option Detail :=
  (Detail.ofText word).toOption

/-- An option with the path of a file. -/
def path (name : String) (letter : Option Char) : OptionSpec where
  name := name
  letter := letter
  accepts word := !word.isEmpty

/-- An option with a text. -/
def text (name : String) : OptionSpec where
  name := name

/-- An option with a number. -/
def number (name : String) : OptionSpec where
  name := name
  accepts word := (number? word).isSome

/-- An option with a format. -/
def format (name : String) : OptionSpec where
  name := name
  accepts word := (format? word).isSome

/-- An option with a level of detail. -/
def detail (name : String) : OptionSpec where
  name := name
  accepts word := (detail? word).isSome

/-- An option without a value. -/
def switch (name : String) : OptionSpec where
  name := name
  takesValue := false

/-! ## Commands -/

/-- The options of every command. -/
def general : List OptionSpec := [
  path "config" none,
  { switch "verbose" with letter := some 'v', isRepeatable := true },
  { switch "quiet" with letter := some 'q' }]

/-- What the tool can be given before the name of a command. -/
def top : ArgumentSpec where
  options := general
  positions := []
  hasVersion := true

/-- What each command can be given, and which options it has to be given. -/
structure CommandSpec where
  name : String
  positions : List String
  options : List OptionSpec
  required : List String

/-- The commands. -/
def commands : List CommandSpec := [
  { name := "build"
    positions := []
    options := [path "output" (some 'o'), path "database" none, format "format", detail "mode",
      switch "json", switch "details"]
    required := ["output"] },
  { name := "analyze"
    positions := ["graph"]
    options := [format "format", switch "exclude-unresolved", number "max-cycle-length",
      number "max-cycles", switch "json"]
    required := [] },
  { name := "subgraph"
    positions := ["graph"]
    options := [text "focus", number "up", number "down", path "output" (some 'o'),
      format "format", format "to", detail "mode"]
    required := ["focus", "output"] },
  { name := "paths"
    positions := ["graph"]
    options := [text "from", text "to", number "cutoff", format "format", switch "json"]
    required := ["from", "to"] },
  { name := "classify"
    positions := ["graph"]
    options := [format "format", text "role", switch "annotate", path "output" (some 'o'),
      switch "json"]
    required := [] },
  { name := "convert"
    positions := ["input", "output"]
    options := [format "from", format "to", detail "mode", switch "populate",
      path "database" none]
    required := [] },
  { name := "import"
    positions := ["input"]
    options := [path "database" none]
    required := [] }]

/-- The command with the given name. -/
def command? (name : String) : Option CommandSpec :=
  commands.find? (·.name == name)

/-- What can stand after the name of a command. -/
def CommandSpec.arguments (spec : CommandSpec) : ArgumentSpec where
  options := spec.options ++ general
  positions := spec.positions

/-- What keeps arguments that were read from being complete. -/
def CommandSpec.incomplete? (spec : CommandSpec) (given : Arguments) : Option UsageError :=
  match given.missing? spec.arguments, spec.required.find? (!given.has ·) with
  | some name, _ => some (.missing name)
  | none, some name => some (.missing name)
  | none, none =>
      if spec.name = "classify" && given.has "output" && !given.has "annotate" then
        some (.missing "annotate")
      else none

/-! ## Reading -/

/-- The value of an option that was checked when it was read. -/
def optional (value? : String → Option α) (given : Arguments) (name : String) : Option α :=
  (given.value? name).bind value?

/-- The value at a place. -/
def position (given : Arguments) (place : Nat) : String :=
  given.positions.getD place ""

/-- The command with complete arguments. -/
def ofArguments? (name : String) (given : Arguments) : Option Command :=
  let text (name : String) : String := (given.value? name).getD ""
  match name with
  | "build" => some (.build {
      output := text "output"
      database := given.value? "database"
      format := optional format? given "format"
      detail := optional detail? given "mode"
      asData := given.has "json"
      showsDetails := given.has "details" })
  | "analyze" => some (.analyze {
      graph := position given 0
      format := optional format? given "format"
      excludesUnresolved := given.has "exclude-unresolved"
      maxCycleLength := optional number? given "max-cycle-length"
      maxCycles := optional number? given "max-cycles"
      asData := given.has "json" })
  | "subgraph" => some (.subgraph {
      graph := position given 0
      focus := text "focus"
      callerHops := (optional number? given "up").getD 1
      calleeHops := optional number? given "down"
      output := text "output"
      format := optional format? given "format"
      outputFormat := optional format? given "to"
      detail := optional detail? given "mode" })
  | "paths" => some (.paths {
      graph := position given 0
      source := text "from"
      target := text "to"
      cutoff := optional number? given "cutoff"
      format := optional format? given "format"
      asData := given.has "json" })
  | "classify" => some (.classify {
      graph := position given 0
      format := optional format? given "format"
      role := given.value? "role"
      annotates := given.has "annotate"
      output := given.value? "output"
      asData := given.has "json" })
  | "convert" => some (.convert {
      input := position given 0
      output := position given 1
      inputFormat := optional format? given "from"
      outputFormat := optional format? given "to"
      detail := optional detail? given "mode"
      populates := given.has "populate"
      database := given.value? "database" })
  | "import" => some (.importObjects {
      input := position given 0
      database := given.value? "database" })
  | _ => none

/-- What the words after the name of the tool ask for. -/
inductive Reading where
  | help
  | version
  /-- There are no words. -/
  | nothing
  | wrong (error : UsageError)
  | request (request : Request)
deriving DecidableEq, Repr

/-- The reading of words that are not read to the end. -/
def Reading.ofStop : Stop → Reading
  | .help => help
  | .version => version
  | .wrong error => wrong error

/-- Help can be asked for by a word as well, for the tool, for a command or for that word. -/
def readHelp : List String → Reading
  | [] => .help
  | [name] =>
      if name = "help" || (command? name).isSome then .help else .wrong (.unknownCommand name)
  | name :: word :: _ =>
      .wrong (.unknownCommand (if name = "help" || (command? name).isSome then word else name))

/-- Reads the words after the name of a command; `early` is what stood before it, and `named` is the
value of the variable. -/
def readCommand (named : Option String) (early : Arguments) (spec : CommandSpec)
    (words : List String) : Reading :=
  match Arguments.read spec.arguments (fun _ => false) {} words with
  | .error stop => .ofStop stop
  | .ok (given, _) =>
      match spec.incomplete? given, ofArguments? spec.name given with
      | some error, _ => .wrong error
      | none, none => .wrong (.unknownCommand spec.name)
      | none, some command =>
          if named = some "" then .wrong (.missingValue "config")
          else
            let settings := (given.value? "config").or ((early.value? "config").or named)
            .request ⟨settings, command⟩

/-- Reads the words after the name of the tool, with the value of the variable that names a
settings file. -/
def read (named : Option String) (words : List String) : Reading :=
  match Arguments.read top (fun word => word == "help" || (command? word).isSome) {} words with
  | .error stop => .ofStop stop
  | .ok (early, name :: rest) =>
      match command? name with
      | some spec => readCommand named early spec rest
      | none => readHelp rest
  | .ok (early, []) =>
      if named = some "" then .wrong (.missingValue "config")
      else if early.options.isEmpty && named.isNone then .nothing
      else .wrong .missingCommand

/-- How a command is written. -/
def CommandSpec.usage (spec : CommandSpec) : String :=
  " ".intercalate (spec.name :: spec.positions.map (fun name => "<" ++ name ++ ">") ++
    spec.options.map fun option => "[--" ++ option.name ++ "]")

/-- The text that explains how the tool is used. -/
def explanation : String :=
  "Usage: " ++ tool ++ " [OPTIONS] <COMMAND>\n\nCommands:\n" ++
    String.join (commands.map fun spec => "  " ++ spec.usage ++ "\n") ++
    "\nOptions: " ++ " ".intercalate (general.map fun option => "--" ++ option.name) ++ "\n"

end Usage

end CallGraph
