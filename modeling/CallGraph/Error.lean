import CallGraph.Analysis.Roles
import CallGraph.Construction.Build
import CallGraph.Document.Format
import CallGraph.Number.Shortest

/-!
# Errors

Everything that can go wrong, by its cause, and the texts of errors.  The description of a fault
inside a data format or a database is not part of a text: an asterisk stands in its place.
-/

namespace CallGraph

/-- What stands in a text in place of the description of a fault in a data format. -/
def undescribed : String := "*"

/-- The text of the error. -/
def ThresholdError.message (error : ThresholdError) : String :=
  "Invalid threshold " ++ error.name ++ " = " ++ Number.plain error.value

/-- The text of the error. -/
def UnsupportedFormat.message (error : UnsupportedFormat) : String :=
  "Unsupported graph format: " ++ error.description

/-- Why a graph file cannot be saved or loaded. -/
inductive FileError where
  | notFound (path : String)
  | io
  /-- A fault in the contents of the file, which the text may leave undescribed. -/
  | malformed (format path fault : String) (isDescribed : Bool := true)
  | unsupported (error : UnsupportedFormat)
deriving DecidableEq, Repr

/-- The text of the error. -/
def FileError.message : FileError → String
  | notFound path => s!"Graph file not found: {path}"
  | io => s!"IO error on {undescribed}"
  | malformed format path fault _ => s!"Invalid {format} graph file {path}: {fault}"
  | unsupported error => error.message

/-- Why a store of code objects does not answer. -/
inductive StoreError where
  | database
  | notFound (path : String)
  | migration (reason : String)
  | serialization
deriving DecidableEq, Repr

/-- The text of the error. -/
def StoreError.message : StoreError → String
  | database => s!"SQLite error: {undescribed}"
  | notFound path => s!"Database not found: {path}"
  | migration reason => s!"Migration failed: {reason}"
  | serialization => s!"Serialization error: {undescribed}"

/-- Why settings cannot be used. -/
inductive SettingsError where
  | notFound (path : String)
  | invalid (reason : String)
  | parse (description : String)
deriving DecidableEq, Repr

/-- The text of the error. -/
def SettingsError.message : SettingsError → String
  | notFound path => s!"Config file not found: {path}"
  | invalid reason => s!"Invalid config: {reason}"
  | parse description => s!"Parse error: {description}"

/-- Any error. -/
inductive Error where
  | store (error : StoreError)
  | graph (error : GraphError)
  | build (error : BuildError)
  | file (error : FileError)
  | threshold (error : ThresholdError)
  | settings (error : SettingsError)

namespace Error

/-- The text of the error with the area that it belongs to. -/
def message : Error → String
  | store error => "Store error: " ++ error.message
  | graph error => "Graph error: " ++ error.message
  | build error => "Build error: " ++ error.message
  | file error => "Persistence error: " ++ error.message
  | threshold error => "Analysis error: " ++ error.message
  | settings error => "Configuration error: " ++ error.message

/-- Whether the text describes the error, rather than leaving a part of it open. -/
def isDescribed : Error → Bool
  | store .database => false
  | store .serialization => false
  | file .io => false
  | file (.malformed _ _ _ isDescribed) => isDescribed
  | settings (.parse _) => false
  | _ => true

/-- The text of the error within its area. -/
def cause : Error → String
  | store error => error.message
  | graph error => error.message
  | build error => error.message
  | file error => error.message
  | threshold error => error.message
  | settings error => error.message

/-- Whether the error says that an id is not in a graph. -/
def isMissingNode : Error → Bool
  | graph (.nodeNotFound _) => true
  | _ => false

end Error

end CallGraph
