import CallGraph.Text.Blank
import CallGraph.Text.LowerCase

/-!
# Kinds of code objects

Kinds have exact names, which files use, and a reading that forgives spelling, which turns every
text into a kind.
-/

namespace CallGraph

/-- What sort of unit a code object is. -/
inductive Kind where
  | procedure
  | function
  | package
  | trigger
  | type
  | unknown
deriving DecidableEq, Repr, Inhabited

namespace Kind

/-- All kinds, in their order in files. -/
def all : List Kind :=
  [procedure, function, package, trigger, type, unknown]

/-- The exact name of a kind. -/
def name : Kind → String
  | procedure => "procedure"
  | function => "function"
  | package => "package"
  | trigger => "trigger"
  | type => "type"
  | unknown => "unknown"

/-- The kind with this exact name. -/
def ofName? (s : String) : Option Kind :=
  all.find? (·.name == s)

/-- The kind that a text means: case and blank ends do not matter, some short and long forms of
the names are known, and any other text means `unknown`. -/
def ofText (s : String) : Kind :=
  match Text.lower (Text.trim s) with
  | "procedure" | "proc" => procedure
  | "function" | "func" => function
  | "package" | "package body" | "package_body" => package
  | "trigger" => trigger
  | "type" | "type body" | "type_body" => type
  | _ => unknown

/-- The name of a kind means that kind. -/
theorem ofText_name (kind : Kind) : ofText kind.name = kind := by
  cases kind <;> decide

/-- A kind is the one with its name. -/
theorem ofName?_name (kind : Kind) : ofName? kind.name = some kind := by
  cases kind <;> decide

end Kind

end CallGraph
