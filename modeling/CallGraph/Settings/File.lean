import CallGraph.Settings
import CallGraph.Toml.Reader

/-!
# Settings files

Settings are written in TOML, a table for each section.
-/

namespace CallGraph

open Data

/-- Whether a tree is a list or a record without parts, which is how a choice by the name of a
field is left empty in TOML. -/
def Data.isEmptyTable : Data → Bool
  | list items => items.isEmpty
  | record fields => fields.isEmpty
  | _ => false

namespace Settings

/-- How sections are written in TOML. -/
def tomlStyle : SectionStyle where
  isEmpty := Data.isEmptyTable
  allowsMore := true

/-- Reads settings that keep the rules. -/
def ofToml (text : String) : Except SettingsError Settings := do
  match (Toml.read text.toList).bind (ofData? tomlStyle) with
  | none => throw (.parse undescribed)
  | some settings =>
    settings.validate
    return settings

end Settings

end CallGraph
