import CallGraph.Analysis.Cycles
import CallGraph.Analysis.Summary
import CallGraph.Analysis.Roles
import CallGraph.Code.Data
import CallGraph.Files.Contents

/-!
# Reports

What commands print, as lines of text and as data.
-/

namespace CallGraph

/-! ## Layout -/

namespace Layout

/-- The text with blanks after it, up to the given width. -/
def padRight (width : Nat) (text : String) : String :=
  text ++ String.ofList (List.replicate (width - text.length) ' ')

/-- The text with blanks before it, up to the given width. -/
def padLeft (width : Nat) (text : String) : String :=
  String.ofList (List.replicate (width - text.length) ' ') ++ text

/-- The text, of which no more than its end is shown if it is longer than the given width. -/
def shortened (width : Nat) (text : String) : String :=
  let cs := text.toList
  if cs.length ≤ width then text
  else ".." ++ String.ofList (cs.drop (cs.length - (width - 2)))

/-- A line of a list. -/
def item (text : String) : String :=
  "  " ++ text

/-- A list with its title and length, a remark, and an empty line after it. -/
def titled (title : String) (items : List String) (remark : String) : List String :=
  (s!"{title}: {items.length}" ++ remark) :: items.map item ++ [""]

end Layout

open Layout

/-- A list of texts as data. -/
def Data.ofTexts (texts : List String) : Data :=
  .list (texts.map .text)

/-! ## Analysis -/

/-- The structure of a graph. -/
structure Analysis where
  summary : Summary
  entryPoints : List String
  terminals : List String
  cycles : Graph.Cycles
  /-- The strong components with more than one member. -/
  cyclicComponents : List (List String)
  weakComponents : List (List String)

/-- Finds out the structure of a graph. -/
def Graph.analysis (g : Graph) (limits : SearchLimits) (excludesUnresolved : Bool) : Analysis where
  summary := g.summary
  entryPoints := g.entryPoints
  terminals := g.terminals excludesUnresolved
  cycles := g.cycles limits
  cyclicComponents := (g.components .strong).filter (1 < ·.length)
  weakComponents := g.components .weak

/-- The summary as data. -/
def Summary.toData (s : Summary) : Data :=
  .record [
    ("nodes", .integer s.nodes),
    ("edges", .integer s.edges),
    ("self_loops", .integer s.selfLoops),
    ("density", .real s.density),
    ("entry_points", .integer s.entryPoints),
    ("terminal_nodes", .integer s.terminals),
    ("cyclic_components", .integer s.cyclicComponents),
    ("weak_components", .integer s.weakComponents),
    ("largest_weak_component", .integer s.largestWeakComponent),
    ("populated_nodes", .integer s.populatedNodes),
    ("placeholder_nodes", .integer s.placeholderNodes)]

namespace Analysis

/-- The structure as data. -/
def toData (a : Analysis) : Data :=
  .record [
    ("summary", a.summary.toData),
    ("entry_points", .ofTexts a.entryPoints),
    ("terminal_nodes", .ofTexts a.terminals),
    ("cycles", .list (a.cycles.cycles.map fun cycle => .ofTexts cycle.nodes)),
    ("cycles_truncated", .bool a.cycles.isTruncated),
    ("cyclic_components", .list (a.cyclicComponents.map .ofTexts)),
    ("weak_components", .list (a.weakComponents.map .ofTexts))]

/-- The structure in words. -/
def lines (a : Analysis) : List String :=
  let s := a.summary
  let cut := if a.cycles.isTruncated then " (truncated)" else ""
  [s!"Graph: {s.nodes} nodes, {s.edges} edges, {s.selfLoops} self-loops",
    "  Density " ++ Number.fixed 4 s.density ++
      s!", {s.populatedNodes} populated / {s.placeholderNodes} placeholder nodes",
    s!"  {s.weakComponents} weak components (largest {s.largestWeakComponent}), " ++
      s!"{s.cyclicComponents} cyclic components",
    ""] ++
  titled "Entry points" a.entryPoints "" ++
  titled "Terminal nodes" a.terminals "" ++
  titled "Cycles" (a.cycles.cycles.map Cycle.text) cut ++
  s!"Strongly-connected components: {a.cyclicComponents.length}" ::
    a.cyclicComponents.map fun ids => "  [" ++ ", ".intercalate ids ++ "]"

end Analysis

/-! ## Paths -/

/-- Paths in words. -/
def pathLines (source target : String) (paths : List (List String)) : List String :=
  s!"{paths.length} path(s) from {source} to {target}:" ::
    paths.map fun path => item (" -> ".intercalate path)

/-! ## Classification -/

/-- Measures as data. -/
def Measures.toData (m : Measures) : Data :=
  .record [
    ("in_degree", .integer m.degrees.incoming),
    ("out_degree", .integer m.degrees.outgoing),
    ("total_degree", .integer m.degrees.total),
    ("betweenness", .real m.betweenness),
    ("pagerank", .real m.pageRank),
    ("complexity", .ofOptional (fun n : Nat => .integer n) m.complexity),
    ("component_size", .integer m.componentSize)]

/-- Thresholds as data. -/
def Thresholds.toData (t : Thresholds) : Data :=
  .record [
    ("hub_degree", .real t.hubDegree),
    ("hub_betweenness", .real t.hubBetweenness),
    ("utility_out_degree", .real t.utilityOutDegree),
    ("utility_complexity", .ofOptional .real t.utilityComplexity)]

namespace Classification

/-- The classification as data. -/
def toData (c : Classification) : Data :=
  .record [
    ("roles", .record (c.nodes.map fun node => (node.id, .text node.role.name))),
    ("metrics", .record (c.nodes.map fun node => (node.id, node.measures.toData))),
    ("thresholds", c.thresholds.toData)]

/-- The width of the column of ids. -/
def idWidth : Nat := 48

/-- A line of the table of nodes. -/
def tableLine (id role incoming outgoing betweenness pageRank : String) : String :=
  " ".intercalate [padRight idWidth id, padRight 13 role, padLeft 5 incoming, padLeft 5 outgoing,
    padLeft 11 betweenness, padLeft 9 pageRank]

/-- The line of a node. -/
def nodeLine (node : Classified) : String :=
  let m := node.measures
  tableLine (shortened idWidth node.id) node.role.name (toString m.degrees.incoming)
    (toString m.degrees.outgoing) (Number.fixed 4 m.betweenness) (Number.fixed 4 m.pageRank)

/-- The classification as a table, of all nodes or of those with one role. -/
def lines (c : Classification) (role : Option Role) : List String :=
  let counts := c.counts.map fun (role, n) => s!"{role.name} {n}"
  let shown := c.nodes.filter fun node => role.all (node.role == ·)
  ["Roles: " ++ ", ".intercalate counts, "",
    tableLine "Node" "Role" "In" "Out" "Betweenness" "PageRank",
    String.ofList (List.replicate 96 '-')] ++ shown.map nodeLine

end Classification

/-! ## Building -/

/-- What was saved as data. -/
def SaveStats.toData (s : SaveStats) : Data :=
  .record [
    ("path", .text s.path),
    ("format", .text s.format.name),
    ("mode", .text s.detail.name),
    ("nodes", .integer s.nodes),
    ("edges", .integer s.edges),
    ("bytes", .integer s.bytes)]

namespace BuildStats

/-- The record of a construction as data. -/
def toData (s : BuildStats) : Data :=
  .record [
    ("nodes_added", .integer s.nodesAdded),
    ("edges_added", .integer s.edgesAdded),
    ("call_sites", .integer s.callSites),
    ("self_loops", .integer s.selfLoops),
    ("unresolved", .list (s.unresolved.map fun u => .record [
      ("caller", .text u.caller),
      ("callee_name", .text u.callee),
      ("line", .integer u.line)])),
    ("ambiguous", .list (s.ambiguous.map fun a => .record [
      ("caller", .text a.caller),
      ("callee_name", .text a.callee),
      ("line", .integer a.line),
      ("chosen", .text a.chosen),
      ("candidates", .ofTexts a.candidates)])),
    ("malformed", .list (s.malformed.map fun m => .record [
      ("id", .text m.id),
      ("reason", .text m.rejection.reason)]))]

/-- The record of a construction in words, with the file that the graph was saved in. -/
def lines (s : BuildStats) (saved : SaveStats) : List String := [
  s!"Built call graph: {s.nodesAdded} nodes, {s.edgesAdded} edges " ++
    s!"({s.callSites} call sites, {s.selfLoops} self-loops)",
  s!"  Unresolved: {s.unresolved.length}  Ambiguous: {s.ambiguous.length}  " ++
    s!"Malformed: {s.malformed.length}",
  s!"  Saved {saved.path} ({saved.format.name}, {saved.detail.name}, {saved.bytes} bytes)"]

/-- The problems of a construction, one by one. -/
def detailLines (s : BuildStats) : List String :=
  s.malformed.map (fun m => "  malformed   " ++ m.toError.message) ++
  s.unresolved.map (fun u => s!"  unresolved  {u.caller} -> {u.callee} (line {u.line})") ++
  s.ambiguous.map fun a =>
    s!"  ambiguous   {a.caller} -> {a.callee} (line {a.line}): chose {a.chosen} of [" ++
      ", ".intercalate a.candidates ++ "]"

end BuildStats

end CallGraph
