import CallGraph.Data.Basic
import CallGraph.Error
import CallGraph.Analysis.Limits

/-!
# Settings

The settings of the tool, by sections, and the rules that the values have to keep.
-/

namespace CallGraph

open Data

/-- The settings of the tool: how graphs are written, where code objects are stored, and how
graphs are analysed. -/
structure Settings where
  format : Format := .graphml
  detail : Detail := .structureOnly
  database : String := "code_objects.db"
  roles : RoleSettings := {}
  centrality : CentralitySettings := {}
  search : SearchLimits := {}

/-! ## Rules -/

/-- Every limit that is set leaves something to search. -/
def SearchLimits.validate (limits : SearchLimits) : Except SettingsError Unit :=
  match limits.zeroLimit? with
  | some name => .error (.invalid s!"search.{name} must be at least 1")
  | none => .ok ()

/-- The walk follows edges with a probability strictly between zero and one, and neither steps nor
sources are none. -/
def CentralitySettings.validate (settings : CentralitySettings) : Except SettingsError Unit :=
  if !(0.0 < settings.damping && settings.damping < 1.0) then
    .error (.invalid
      ("centrality.damping must be in (0, 1), got " ++ Number.plain settings.damping))
  else if settings.iterations = 0 then
    .error (.invalid "centrality.max_iterations must be at least 1")
  else if settings.sampleSize = some 0 then
    .error (.invalid "centrality.sample_size must be at least 1")
  else .ok ()

/-- The percentiles lie in their range. -/
def RoleSettings.validate (settings : RoleSettings) : Except SettingsError Unit :=
  match settings.error? with
  | some error => .error (.invalid error.message)
  | none => .ok ()

/-- Checks all rules; the first that is broken is reported. -/
def Settings.validate (settings : Settings) : Except SettingsError Unit := do
  settings.roles.validate
  settings.centrality.validate
  settings.search.validate

/-! ## Reading

Every field may be missing.  A number that counts may be a null where it is optional. -/

/-- How the sections of a settings record are written: the sign of an empty choice, and whether a
list may hold more values than a section has fields. -/
structure SectionStyle where
  isEmpty : Data → Bool
  allowsMore : Bool

/-- The values of the fields of a section. -/
def SectionStyle.fields? (style : SectionStyle) (keys : List String) (tree : Data) :
    Option (List (Option Data)) :=
  match tree with
  | .list items =>
      Data.fields? keys (.list (if style.allowsMore then items.take keys.length else items))
  | _ => Data.fields? keys tree

/-- Reads the limits of searches. -/
def SearchLimits.ofData? (style : SectionStyle) (tree : Data) : Option SearchLimits := do
  let [path, length, count] ←
    style.fields? ["path_cutoff", "max_cycle_length", "max_cycles"] tree | none
  some {
    pathCutoff := ← orElse? none (optional? word64?) path
    maxCycleLength := ← orElse? none (optional? word64?) length
    maxCycles := ← orElse? none (optional? word64?) count }

/-- Reads how roles are found. -/
def RoleSettings.ofData? (style : SectionStyle) (tree : Data) : Option RoleSettings := do
  let [hub, outDegree, complexity, orphan] ←
    style.fields? ["hub_percentile", "utility_out_degree_percentile",
      "utility_complexity_percentile", "orphan_component_size"] tree | none
  let unset : RoleSettings := {}
  some {
    hubPercentile := ← orElse? unset.hubPercentile real? hub
    utilityOutDegreePercentile := ← orElse? unset.utilityOutDegreePercentile real? outDegree
    utilityComplexityPercentile := ← orElse? unset.utilityComplexityPercentile real? complexity
    orphanComponentSize := ← orElse? unset.orphanComponentSize word64? orphan }

/-- Reads how centrality is computed. -/
def CentralitySettings.ofData? (style : SectionStyle) (tree : Data) :
    Option CentralitySettings := do
  let [sampleAbove, sampleSize, damping, iterations] ←
    style.fields? ["approx_threshold", "sample_size", "damping", "max_iterations"] tree | none
  let unset : CentralitySettings := {}
  some {
    sampleAbove := ← orElse? unset.sampleAbove word64? sampleAbove
    sampleSize := ← orElse? unset.sampleSize (optional? word64?) sampleSize
    damping := ← orElse? unset.damping real? damping
    iterations := ← orElse? unset.iterations word32? iterations }

/-- Reads all settings. -/
def Settings.ofData? (style : SectionStyle) (tree : Data) : Option Settings := do
  let [graph, store, classify, centrality, search] ←
    style.fields? ["graph", "store", "classify", "centrality", "search"] tree | none
  let unset : Settings := {}
  let (format, detail) ← orElse? (unset.format, unset.detail) (fun tree => do
    let [format, detail] ← style.fields? ["format", "mode"] tree | none
    some (← orElse? unset.format (choice? style.isEmpty Format.ofName?) format,
      ← orElse? unset.detail (choice? style.isEmpty Detail.ofName?) detail)) graph
  let database ← orElse? unset.database (fun tree => do
    let [database] ← style.fields? ["database"] tree | none
    orElse? unset.database text? database) store
  some {
    format := format
    detail := detail
    database := database
    roles := ← orElse? unset.roles (RoleSettings.ofData? style) classify
    centrality := ← orElse? unset.centrality (CentralitySettings.ofData? style) centrality
    search := ← orElse? unset.search (SearchLimits.ofData? style) search }

end CallGraph
