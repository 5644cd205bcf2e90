import CallGraph.Analysis.Neighbourhood
import CallGraph.Analysis.Paths
import CallGraph.Command.Basic
import CallGraph.Command.Report

/-!
# Running commands

A command reads settings first and then does its work in a file system.  It prints lines or a
single tree of data; if it fails, what was printed before stays printed.
-/

namespace CallGraph

/-! ## Failures -/

/-- Why a command fails: an error, with what was being done, or a fault in what it was given. -/
inductive Failure where
  | error (task : Option String) (error : Error)
  | unknownRole (name : String)
  | unreadableObjects
  | malformedObjects

namespace Failure

/-- The message of a failure.  An error is given in full and once more within its area, except
where its description is left out, which ends the message. -/
def message : Failure → String
  | error task e =>
      let start := match task with
        | some task => task ++ ": "
        | none => ""
      start ++ e.message ++ if e.isDescribed then ": " ++ e.cause else ""
  | unknownRole name =>
      s!"Unknown role: {name}. Use one of: " ++ ", ".intercalate (Role.all.map Role.name)
  | unreadableObjects => s!"Cannot read code objects: {undescribed}"
  | malformedObjects => s!"Invalid code-object JSON: {undescribed}"

/-- The exit code of a failure, by the area of its error. -/
def exitCode : Failure → Nat
  | error _ (.settings _) => 2
  | error _ (.graph _) => 3
  | error _ (.store _) => 4
  | error _ (.file _) => 5
  | _ => 1

end Failure

/-! ## Output -/

/-- What a command has printed. -/
structure Output where
  lines : List String := []
  data : Option Data := none

/-- What a command has printed, and why it failed if it did. -/
structure Outcome where
  output : Output
  failure : Option Failure

namespace Outcome

/-- The exit code, zero for success. -/
def exitCode (outcome : Outcome) : Nat :=
  match outcome.failure with
  | none => 0
  | some failure => failure.exitCode

/-- The printed text: lines, and then data in the readable layout. -/
def text (outcome : Outcome) : String :=
  String.join (outcome.output.lines.map (· ++ "\n")) ++
    match outcome.output.data with
    | none => ""
    | some tree => Json.pretty tree ++ "\n"

end Outcome

namespace Command

variable {m : Type → Type} [Monad m] [FileSystem m]

/-- A step of a command. -/
abbrev Action (m : Type → Type) := ExceptT Failure (StateT Output m)

/-- Prints lines. -/
def print (lines : List String) : Action m Unit :=
  modify fun output => { output with lines := output.lines ++ lines }

/-- Prints data. -/
def printData (tree : Data) : Action m Unit :=
  modify fun output => { output with data := some tree }

/-- Goes on with a result. -/
def orFail (wrap : ε → Error) (task : Option String) (result : Except ε α) : Action m α :=
  match result with
  | .ok a => return a
  | .error e => throw (.error task (wrap e))

/-- Does something with files, of which the task is told if it fails. -/
def attempt (wrap : ε → Error) (task : String) (action : ExceptT ε m α) : Action m α := do
  orFail wrap (some task) (← (action.run : m (Except ε α)))

/-! ## Common steps -/

/-- The file that settings are read from if none is named. -/
def settingsFile : String := "depgraph.toml"

/-- Reads the settings in a file that is named, or in the usual one if it is there. -/
def loadSettings (named : Option String) : Action m Settings := do
  let read (path : String) : Action m Settings :=
    attempt .settings ("Cannot load config: " ++ path) (Settings.load path)
  match named with
  | some path => read path
  | none =>
      match ← FileSystem.look (m := m) settingsFile with
      | .missing => return {}
      | _ => read settingsFile

/-- Reads the graph that a command works on. -/
def loadGraph (path : String) (format : Option Format) : Action m Graph :=
  attempt .file ("Cannot load graph: " ++ path) (Graph.loadAs path format)

/-- Opens a database that has to be there. -/
def openDatabase (path : String) : Action m Database :=
  attempt .store ("Cannot open database: " ++ path) (Database.openExisting path)

/-- The format that a file is written in. -/
def outputFormat (settings : Settings) (chosen : Option Format) (path : String) : Format :=
  chosen.getD ((Format.ofPath path).toOption.getD settings.format)

/-- The limits of the settings with some of them set anew. -/
def searchLimits (settings : Settings) (set : SearchLimits) : Action m SearchLimits := do
  let limits : SearchLimits := {
    pathCutoff := set.pathCutoff.or settings.search.pathCutoff
    maxCycleLength := set.maxCycleLength.or settings.search.maxCycleLength
    maxCycles := set.maxCycles.or settings.search.maxCycles }
  orFail .settings (some "Invalid search limits") limits.validate
  return limits

/-- The role that a text names; case and blank ends do not matter, and a dash counts as an
underscore. -/
def role? (name : String) : Option Role :=
  let wanted := (Text.lowerChars (Text.trimChars name.toList)).map fun c =>
    if c = '-' then '_' else c
  Role.all.find? fun role => role.name.toList = wanted

/-! ## Commands -/

/-- Builds the graph of a database and saves it. -/
def runBuild (c : BuildCommand) (settings : Settings) : Action m Unit := do
  let db ← openDatabase (c.database.getD settings.database)
  let built ← orFail .store (some "Failed to build call graph") (ObjectStore.build db true)
  let format := outputFormat settings c.format c.output
  let saved ← attempt .file ("Cannot save graph: " ++ c.output)
    (built.graph.save c.output format (c.detail.getD settings.detail))
  if c.asData then
    printData (.record [("saved", saved.toData), ("stats", built.stats.toData)])
  else
    print (built.stats.lines saved)
    if c.showsDetails then print built.stats.detailLines

/-- Reports the structure of a graph. -/
def runAnalyze (c : AnalyzeCommand) (settings : Settings) : Action m Unit := do
  let limits ← searchLimits settings
    { maxCycleLength := c.maxCycleLength, maxCycles := c.maxCycles }
  let g ← loadGraph c.graph c.format
  let analysis := g.analysis limits c.excludesUnresolved
  if c.asData then printData analysis.toData else print analysis.lines

/-- Cuts out the neighbourhood of a node and saves it. -/
def runSubgraph (c : SubgraphCommand) (settings : Settings) : Action m Unit := do
  let g ← loadGraph c.graph c.format
  let part ← orFail .graph none (Neighbourhood.of ⟨c.focus, c.callerHops, c.calleeHops⟩ g)
  let format := outputFormat settings c.outputFormat c.output
  let saved ← attempt .file ("Cannot save subgraph: " ++ c.output)
    (part.save c.output format (c.detail.getD (Document.detailOf part.nodes)))
  print [s!"Subgraph around {c.focus}: {saved.nodes} nodes, {saved.edges} edges -> " ++
    s!"{saved.path} ({format.name})"]

/-- Lists the simple paths between two nodes. -/
def runPaths (c : PathsCommand) (settings : Settings) : Action m Unit := do
  let limits ← searchLimits settings { pathCutoff := c.cutoff }
  let g ← loadGraph c.graph c.format
  let paths ← orFail .graph none (g.simplePaths c.source c.target limits.pathCutoff)
  if c.asData then printData (.list (paths.map .ofTexts))
  else print (pathLines c.source c.target paths)

/-- Finds the role of every node.  Settings that were read keep the rules, so the walk of the page
rank never lacks a damping. -/
def classified (g : Graph) (settings : Settings) : Action m Classification :=
  match g.classify settings.roles settings.centrality with
  | .ok c => return c
  | .error (.threshold error) => throw (.error none (.threshold error))
  | .error (.damping _) =>
      throw (.error none (.settings (.invalid "centrality.damping must be in (0, 1)")))

/-- Finds the roles of nodes, and may write them into a graph file. -/
def runClassify (c : ClassifyCommand) (settings : Settings) : Action m Unit := do
  let g ← loadGraph c.graph c.format
  let role ← match c.role with
    | none => pure none
    | some name =>
        match role? name with
        | some role => pure (some role)
        | none => throw (.unknownRole name)
  let classification ← classified g settings
  if c.annotates then
    let (annotated, updated) := g.annotate classification
    let output := c.output.getD c.graph
    let chosen := if Path.same output c.graph then c.format else none
    let _ ← attempt .file ("Cannot save annotated graph: " ++ output)
      (annotated.save output (outputFormat settings chosen output)
        (Document.detailOf annotated.nodes))
    unless c.asData do
      print [s!"Annotated {updated} nodes -> {output}"]
  if c.asData then printData classification.toData else print (classification.lines role)

/-- Writes a graph in another format or with other detail. -/
def runConvert (c : ConvertCommand) (settings : Settings) : Action m Unit := do
  let g ← loadGraph c.input c.inputFormat
  let g ← if c.populates then do
      let db ← openDatabase (c.database.getD settings.database)
      let (g, stats) ← orFail .store (some "Failed to rehydrate graph") (g.populate db)
      print [s!"Rehydrated {stats.populated}/{stats.requested} placeholder nodes " ++
        s!"({stats.gaps.length} missing from store)"]
      pure g
    else pure g
  let format := outputFormat settings c.outputFormat c.output
  let saved ← attempt .file ("Cannot save graph: " ++ c.output)
    (g.save c.output format (c.detail.getD settings.detail))
  print [s!"Converted {c.input} -> {saved.path} ({saved.format.name}, {saved.detail.name}): " ++
    s!"{saved.nodes} nodes, {saved.edges} edges"]

/-- The records in a file of code objects. -/
def readRecords (path : String) : Action m (List Data) := do
  match ← FileSystem.look (m := m) path with
  | .missing => throw .unreadableObjects
  | .directory => throw .malformedObjects
  | .file bytes =>
      match (Json.read bytes).bind Data.asValue? with
      | some (.list records) => return records
      | _ => throw .malformedObjects

/-- Adds the code objects in a file to a database.  Records that are no code objects are passed
over. -/
def runImport (c : ImportCommand) (settings : Settings) : Action m Unit := do
  let records ← readRecords c.input
  let objects := records.filterMap CodeObject.ofData?
  let path := c.database.getD settings.database
  let db ← attempt .store ("Cannot open database: " ++ path) (Database.openOrCreate path)
  let db := ObjectStore.putAll db objects
  attempt .store "Failed to write code objects" (db.save path)
  print [s!"Imported {objects.length} code objects into {path} " ++
    s!"({(ObjectStore.stats db).totalObjects} total, {records.length - objects.length} skipped)"]

end Command

/-- Does what a request asks for. -/
def Request.run {m : Type → Type} [Monad m] [FileSystem m] (request : Request) : m Outcome := do
  let action : Command.Action m Unit := do
    let settings ← Command.loadSettings request.settings
    match request.command with
    | .build c => Command.runBuild c settings
    | .analyze c => Command.runAnalyze c settings
    | .subgraph c => Command.runSubgraph c settings
    | .paths c => Command.runPaths c settings
    | .classify c => Command.runClassify c settings
    | .convert c => Command.runConvert c settings
    | .importObjects c => Command.runImport c settings
  match ← action.run.run {} with
  | (.ok (), output) => return ⟨output, none⟩
  | (.error failure, output) => return ⟨output, some failure⟩

end CallGraph
