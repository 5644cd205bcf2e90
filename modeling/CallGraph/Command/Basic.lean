import CallGraph.Document.Format

/-!
# Commands

What the tool can be asked to do.  Formats and levels of detail that are not given are taken from
the extensions of files and from the settings.
-/

namespace CallGraph

/-- Builds the graph of a database and saves it. -/
structure BuildCommand where
  output : String
  database : Option String
  format : Option Format
  detail : Option Detail
  asData : Bool
  showsDetails : Bool
deriving DecidableEq, Repr

/-- Reports the structure of a graph. -/
structure AnalyzeCommand where
  graph : String
  format : Option Format
  excludesUnresolved : Bool
  maxCycleLength : Option Nat
  maxCycles : Option Nat
  asData : Bool
deriving DecidableEq, Repr

/-- Cuts out the neighbourhood of a node and saves it. -/
structure SubgraphCommand where
  graph : String
  focus : String
  callerHops : Nat
  calleeHops : Option Nat
  output : String
  format : Option Format
  outputFormat : Option Format
  detail : Option Detail
deriving DecidableEq, Repr

/-- Lists the simple paths between two nodes. -/
structure PathsCommand where
  graph : String
  source : String
  target : String
  cutoff : Option Nat
  format : Option Format
  asData : Bool
deriving DecidableEq, Repr

/-- Finds the roles of nodes, and may write them into a graph file. -/
structure ClassifyCommand where
  graph : String
  format : Option Format
  role : Option String
  annotates : Bool
  output : Option String
  asData : Bool
deriving DecidableEq, Repr

/-- Writes a graph in another format or with other detail. -/
structure ConvertCommand where
  input : String
  output : String
  inputFormat : Option Format
  outputFormat : Option Format
  detail : Option Detail
  populates : Bool
  database : Option String
deriving DecidableEq, Repr

/-- Adds the code objects in a file to a database. -/
structure ImportCommand where
  input : String
  database : Option String
deriving DecidableEq, Repr

/-- What the tool is asked to do. -/
inductive Command where
  | build (command : BuildCommand)
  | analyze (command : AnalyzeCommand)
  | subgraph (command : SubgraphCommand)
  | paths (command : PathsCommand)
  | classify (command : ClassifyCommand)
  | convert (command : ConvertCommand)
  | importObjects (command : ImportCommand)
deriving DecidableEq, Repr

/-- A command with the settings file that it is to use. -/
structure Request where
  settings : Option String
  command : Command
deriving DecidableEq, Repr

end CallGraph
