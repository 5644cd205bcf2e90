import CallGraph.Code.Kind
import CallGraph.Data.TextMap

/-!
# Code objects

A code object is a unit of code that other code can call: what is known of it, the parameters it
takes and the calls that were found in its source.
-/

namespace CallGraph

/-- How a parameter is passed. -/
inductive ParameterMode where
  | input
  | output
  | both
deriving DecidableEq, Repr, Inhabited

namespace ParameterMode

/-- All modes, in their order in files. -/
def all : List ParameterMode :=
  [input, output, both]

/-- The exact name of a mode. -/
def name : ParameterMode → String
  | input => "in"
  | output => "out"
  | both => "in_out"

/-- The mode with this exact name. -/
def ofName? (s : String) : Option ParameterMode :=
  all.find? (·.name == s)

end ParameterMode

/-- A formal parameter, which is optional if it has a default expression. -/
structure Parameter where
  name : String
  dataType : String
  mode : ParameterMode := .input
  default : Option String := none
deriving DecidableEq, Repr

/-- A call as it was found in source, before it is known what it calls.  The line counts from 1;
the span is the range of characters of the call. -/
structure CallSite where
  callee : String
  line : Nat := 0
  span : Nat × Nat := (0, 0)
  positional : List String := []
  named : TextMap := .empty
deriving DecidableEq, Repr

/-- The number of arguments of a call. -/
def CallSite.argumentCount (call : CallSite) : Nat :=
  call.positional.length + call.named.size

/-- A unit of code.  The package name is empty for an object that belongs to no package; the source
and the literals that were taken out of it need not be loaded. -/
structure CodeObject where
  id : String
  name : String
  packageName : String := ""
  kind : Kind
  isOverloaded : Bool := false
  parameters : List Parameter := []
  returnType : Option String := none
  calls : List CallSite := []
  source : Option String := none
  literals : Option TextMap := none
deriving DecidableEq, Repr

namespace CodeObject

/-- The id that an object has by convention: package and name in lower case. -/
def conventionalId (packageName name : String) : String :=
  if packageName.isEmpty then Text.lower name
  else Text.lower packageName ++ "." ++ Text.lower name

/-- The name with the package before it, if there is one. -/
def qualifiedName (object : CodeObject) : String :=
  if object.packageName.isEmpty then object.name
  else object.packageName ++ "." ++ object.name

/-- The most arguments a call of the object can have. -/
def arity (object : CodeObject) : Nat :=
  object.parameters.length

/-- The number of parameters that a call has to give. -/
def requiredArity (object : CodeObject) : Nat :=
  (object.parameters.filter (·.default.isNone)).length

/-- A rough measure of size, known only with the source: the lines that are not blank, the calls
and the parameters. -/
def complexity (object : CodeObject) : Option Nat :=
  object.source.map fun source =>
    ((Text.lines source.toList).filter fun line => !line.all Text.isBlank).length +
      object.calls.length + object.parameters.length

/-- The object without source and literals. -/
def lightweight (object : CodeObject) : CodeObject :=
  { object with source := none, literals := none }

end CodeObject

end CallGraph
