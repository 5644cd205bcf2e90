/-!
# Arguments of commands

The words after the name of a command are values by position and options, in any order.  An option
has a long name after two dashes and may have a letter after one dash; its value is the next word,
or stands behind its name, with an equals sign or, after a letter, without.  Letters can be joined
behind one dash.  After a word of two dashes all words are values by position.
-/

namespace CallGraph

/-- An option of a command. -/
structure OptionSpec where
  name : String
  letter : Option Char := none
  takesValue : Bool := true
  /-- Whether it may be given more than once. -/
  isRepeatable : Bool := false
  /-- Which values it takes. -/
  accepts : String → Bool := fun _ => true

/-- What a command can be given. -/
structure ArgumentSpec where
  options : List OptionSpec
  /-- The names of the values by position, which are all required. -/
  positions : List String
  /-- Whether the version can be asked for. -/
  hasVersion : Bool := false

/-- What is wrong with the words of a command. -/
inductive UsageError where
  | unknownOption (word : String)
  | unknownCommand (word : String)
  | unexpectedValue (word : String)
  | missingValue (name : String)
  | invalidValue (name value : String)
  | repeatedOption (name : String)
  | missing (name : String)
  | missingCommand
deriving DecidableEq, Repr

/-- The text of the error. -/
def UsageError.message : UsageError → String
  | unknownOption word => s!"unexpected argument '{word}' found"
  | unknownCommand word => s!"unrecognized subcommand '{word}'"
  | unexpectedValue word => s!"unexpected value '{word}' found"
  | missingValue name => s!"a value is required for '{name}' but none was supplied"
  | invalidValue name value => s!"invalid value '{value}' for '{name}'"
  | repeatedOption name => s!"the argument '{name}' cannot be used multiple times"
  | missing name => s!"the required argument '{name}' was not provided"
  | missingCommand => "a subcommand is required but one was not provided"

/-- Why the words of a command are not read to the end. -/
inductive Stop where
  | help
  | version
  | wrong (error : UsageError)
deriving DecidableEq, Repr

/-- What a command is given: options with their values in the order they were given in, and values
by position. -/
structure Arguments where
  options : List (String × String) := []
  positions : List String := []
deriving DecidableEq, Repr

namespace Arguments

/-- Whether an option is given. -/
def has (given : Arguments) (name : String) : Bool :=
  given.options.any (·.1 == name)

/-- The value of an option. -/
def value? (given : Arguments) (name : String) : Option String :=
  (given.options.find? (·.1 == name)).map (·.2)

/-- Adds an option with its value. -/
def addOption (spec : OptionSpec) (value : String) (given : Arguments) : Except Stop Arguments :=
  if given.has spec.name && !spec.isRepeatable then .error (.wrong (.repeatedOption spec.name))
  else if spec.takesValue && !spec.accepts value then
    .error (.wrong (.invalidValue spec.name value))
  else .ok { given with options := given.options ++ [(spec.name, value)] }

/-- Adds a value by position, which may not be empty. -/
def addPosition (spec : ArgumentSpec) (word : String) (given : Arguments) :
    Except Stop Arguments :=
  match spec.positions[given.positions.length]? with
  | none =>
      .error (.wrong
        (if spec.positions.isEmpty then .unknownCommand word else .unexpectedValue word))
  | some name =>
      if word.isEmpty then .error (.wrong (.missingValue name))
      else .ok { given with positions := given.positions ++ [word] }

/-- Whether a word can be the value of the option before it. -/
def isValue (word : String) : Bool :=
  match word.toList with
  | '-' :: _ :: _ => false
  | _ => true

/-- Adds an option whose value, if it takes one, is the next word.  Tells whether that word is
used. -/
def addWithNext (spec : OptionSpec) (next : Option String) (given : Arguments) :
    Except Stop (Arguments × Bool) :=
  if spec.takesValue then
    match next with
    | some word =>
        if isValue word then (given.addOption spec word).map fun given => (given, true)
        else .error (.wrong (.missingValue spec.name))
    | none => .error (.wrong (.missingValue spec.name))
  else (given.addOption spec "").map fun given => (given, false)

/-- Reads a long name, without its dashes, and the value behind an equals sign. -/
def readName (spec : ArgumentSpec) (word : List Char) (next : Option String)
    (given : Arguments) : Except Stop (Arguments × Bool) :=
  let name := String.ofList (word.takeWhile (· ≠ '='))
  let attached := (word.dropWhile (· ≠ '=')).tail?.map String.ofList
  let asks := if name = "help" then some Stop.help
    else if name = "version" && spec.hasVersion then some .version
    else none
  match asks, spec.options.find? (·.name == name), attached with
  | some stop, _, none => .error stop
  | none, some option, none => given.addWithNext option next
  | none, some option, some value =>
      if option.takesValue then (given.addOption option value).map fun given => (given, false)
      else .error (.wrong (.unexpectedValue value))
  | _, _, _ => .error (.wrong (.unknownOption ("--" ++ String.ofList word)))

/-- Reads joined letters. -/
def readLetters (spec : ArgumentSpec) (next : Option String) :
    (letters : List Char) → Arguments → Except Stop (Arguments × Bool)
  | [], given => .ok (given, false)
  | letter :: rest, given =>
      if letter = 'h' then .error .help
      else if letter = 'V' && spec.hasVersion then .error .version
      else
        match spec.options.find? (·.letter == some letter) with
        | none => .error (.wrong (.unknownOption (String.ofList ['-', letter])))
        | some option =>
            if option.takesValue then
              match rest with
              | [] => given.addWithNext option next
              | '=' :: value => (given.addOption option (String.ofList value)).map fun given =>
                  (given, false)
              | value => (given.addOption option (String.ofList value)).map fun given =>
                  (given, false)
            else
              match given.addOption option "" with
              | .ok given => readLetters spec next rest given
              | .error stop => .error stop

/-- What a word begins with. -/
inductive WordKind where
  | dashes
  | name (word : List Char)
  | letters (word : List Char)
  | plain
deriving DecidableEq, Repr

/-- Tells options from other words; a single dash is no option. -/
def kindOf (word : String) : WordKind :=
  match word.toList with
  | ['-', '-'] => .dashes
  | '-' :: '-' :: rest => .name rest
  | '-' :: letter :: rest => .letters (letter :: rest)
  | _ => .plain

/-- Reads words up to the first that `isCommand` accepts, and gives the words from there on. -/
def read (spec : ArgumentSpec) (isCommand : String → Bool) (given : Arguments)
    (words : List String) : Except Stop (Arguments × List String) :=
  match words with
  | [] => .ok (given, [])
  | word :: rest =>
      let next (used : Except Stop (Arguments × Bool)) : Except Stop (Arguments × List String) :=
        match used with
        | .error stop => .error stop
        | .ok (given, true) => read spec isCommand given (rest.drop 1)
        | .ok (given, false) => read spec isCommand given rest
      match kindOf word with
      | .dashes => do
          let given ← rest.foldlM (fun given word => given.addPosition spec word) given
          return (given, [])
      | .name name => next (given.readName spec name rest.head?)
      | .letters letters => next (readLetters spec rest.head? letters given)
      | .plain =>
          if isCommand word then .ok (given, word :: rest)
          else
            match given.addPosition spec word with
            | .ok given => read spec isCommand given rest
            | .error stop => .error stop
termination_by words.length
decreasing_by all_goals simp only [List.length_cons, List.length_drop]; omega

/-- The first of the values by position that is missing. -/
def missing? (spec : ArgumentSpec) (given : Arguments) : Option String :=
  spec.positions[given.positions.length]?

end Arguments

end CallGraph
