import CallGraph.Code.Object
import CallGraph.Data.Ordered

/-!
# Names in scope

What a call means.  A scope holds what can be called; a call is looked up by a few rules, tried in
order, of which the first that finds any candidate decides.  Names are compared in lower case.
-/

namespace CallGraph

/-- The rule by which a call was understood. -/
inductive Rule where
  /-- The name is the id of an object. -/
  | exactId
  /-- The name is a package and a name in it. -/
  | qualified
  /-- The name is found in the package of the caller. -/
  | samePackage
  /-- The name is that of an object in no package. -/
  | schemaLevel
  /-- The name is found without the schema written before it. -/
  | crossSchema
deriving DecidableEq, Repr

/-- What a call means.  An ambiguous call has several candidates, none or several of which accept
its arguments; one of them is taken as its target. -/
inductive Resolution where
  | resolved (rule : Rule) (target : String)
  | ambiguous (rule : Rule) (target : String) (candidates : List String)
  | unresolved
deriving DecidableEq, Repr

/-- The id that a call is taken to mean. -/
def Resolution.target? : Resolution → Option String
  | resolved _ target => some target
  | ambiguous _ target _ => some target
  | unresolved => none

namespace Scope

/-- The names by which something can be called: those of a package member carry the package before
a dot. -/
inductive CallName where
  | member (qualified : String)
  | schemaLevel (name : String)
deriving DecidableEq, Repr

/-- What is known of an object for calling it. -/
structure Callable where
  id : String
  /-- The id in lower case. -/
  key : String
  name : CallName
  requiredArity : Nat
  arity : Nat
  parameters : List String
deriving DecidableEq, Repr

/-- The name, in lower case, of a member of a package. -/
def memberName (package name : String) : String :=
  package ++ "." ++ name

/-- What is known of an object for calling it. -/
def Callable.ofObject (object : CodeObject) : Callable where
  id := object.id
  key := Text.lower object.id
  name :=
    if object.packageName.isEmpty then .schemaLevel (Text.lower object.name)
    else .member (memberName (Text.lower object.packageName) (Text.lower object.name))
  requiredArity := object.requiredArity
  arity := object.arity
  parameters := object.parameters.map fun parameter => Text.lower parameter.name

/-- Whether the call gives all required arguments, not too many, and no unknown ones. -/
def Callable.accepts (callable : Callable) (call : CallSite) : Bool :=
  callable.requiredArity ≤ call.argumentCount && call.argumentCount ≤ callable.arity &&
    call.named.keys.all fun name => callable.parameters.contains (Text.lower name)

end Scope

/-- Everything that can be called, in the order in which it was declared.  A later object with the
same id hides an earlier one. -/
structure Scope where
  callables : List Scope.Callable
deriving DecidableEq, Repr

namespace Scope

/-- The scope of the given objects. -/
def ofObjects (objects : List CodeObject) : Scope where
  callables := objects.map Callable.ofObject

/-- The number of ids that differ in lower case. -/
def size (scope : Scope) : Nat :=
  (scope.callables.map (·.key)).eraseDups.length

/-- The id that reads `key` in lower case. -/
def idOf? (scope : Scope) (key : String) : Option String :=
  (scope.callables.reverse.find? (·.key == key)).map (·.id)

/-- The ids of everything called by that name, in ascending order. -/
def candidates (scope : Scope) (name : CallName) : List String :=
  sortDistinct ((scope.callables.filter (·.name == name)).map (·.id))

/-- Whether the object with this id accepts the arguments of the call. -/
def accepts (scope : Scope) (id : String) (call : CallSite) : Bool :=
  match scope.callables.reverse.find? (·.id == id) with
  | some callable => callable.accepts call
  | none => false

/-- What the call means if it can mean each of the candidates: the only one, or the only one that
accepts its arguments.  Otherwise the first that accepts them is taken, or else the first. -/
def choose (scope : Scope) (rule : Rule) (call : CallSite) : List String → Resolution
  | [] => .unresolved
  | [only] => .resolved rule only
  | first :: rest =>
      match (first :: rest).filter (scope.accepts · call) with
      | [one] => .resolved rule one
      | one :: _ => .ambiguous rule one (first :: rest)
      | [] => .ambiguous rule first (first :: rest)

/-- Tries the rules in order, each with the name that it looks for. -/
def tryRules (scope : Scope) (call : CallSite) : List (Rule × CallName) → Resolution
  | [] => .unresolved
  | (rule, name) :: rest =>
      let ids := scope.candidates name
      if ids.isEmpty then tryRules scope call rest else scope.choose rule call ids

/-- The parts of a text between dots. -/
def segments (cs : List Char) : List (List Char) :=
  match cs with
  | [] => [[]]
  | '.' :: rest => [] :: segments rest
  | c :: rest =>
      match segments rest with
      | [] => [[c]]
      | first :: others => (c :: first) :: others

/-- The rules for a name of the given parts, as called from the given package. -/
def rulesFor (package : String) : List String → List (Rule × CallName)
  | [] => []
  | [name] =>
      let schemaLevel := (.schemaLevel, .schemaLevel name)
      if package.isEmpty then [schemaLevel]
      else [(.samePackage, .member (memberName (Text.lower package) name)), schemaLevel]
  | [first, last] =>
      [(.qualified, .member (memberName first last)), (.crossSchema, .schemaLevel last)]
  | _ :: rest =>
      match rest.reverse with
      | last :: package :: _ => [(.crossSchema, .member (memberName package last))]
      | _ => []

/-- What a call in the given object means. -/
def resolve (scope : Scope) (caller : CodeObject) (call : CallSite) : Resolution :=
  let name := Text.lower (Text.trim call.callee)
  if name.isEmpty then .unresolved
  else match scope.idOf? name with
    | some id => .resolved .exactId id
    | none =>
        let parts := segments name.toList
        if parts.any (·.isEmpty) then .unresolved
        else scope.tryRules call (rulesFor caller.packageName (parts.map String.ofList))

end Scope

end CallGraph
