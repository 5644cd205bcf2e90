import CallGraph.Files.Path
import CallGraph.Text.Blank
import CallGraph.Text.LowerCase
import CallGraph.Text.Quoted

/-!
# Formats of graph files

A graph can be written in four formats, and in full or without the code objects.  Formats and
levels of detail have exact names, which files use, and a reading that forgives spelling.
-/

namespace CallGraph

/-- A format or level of detail that is not known, with the text that describes it. -/
structure UnsupportedFormat where
  description : String
deriving DecidableEq, Repr

/-- A format of graph files. -/
inductive Format where
  | binary
  | graphml
  | json
  | gexf
deriving DecidableEq, Repr, Inhabited

/-- How much of each node is written: with or without its code object. -/
inductive Detail where
  | full
  | structureOnly
deriving DecidableEq, Repr, Inhabited

namespace Format

/-- All formats, in their order in files. -/
def all : List Format :=
  [binary, graphml, json, gexf]

/-- The exact name of a format. -/
def name : Format → String
  | binary => "binary"
  | graphml => "graphml"
  | json => "json"
  | gexf => "gexf"

/-- The extension that files of a format usually have. -/
def extension : Format → String
  | binary => "dgb"
  | graphml => "graphml"
  | json => "json"
  | gexf => "gexf"

/-- The format with this exact name. -/
def ofName? (s : String) : Option Format :=
  all.find? (·.name == s)

/-- The format that a text means. -/
def ofText (s : String) : Except UnsupportedFormat Format :=
  match Text.lower (Text.trim s) with
  | "binary" | "native" | "native-binary" | "bin" => .ok binary
  | "graphml" | "xml" | "portable-xml" => .ok graphml
  | "json" => .ok json
  | "gexf" | "gexf-like" => .ok gexf
  | other => .error ⟨other⟩

/-- The format of files with the extension of this path. -/
def ofPath (path : String) : Except UnsupportedFormat Format :=
  match (Path.extension? path).map fun cs => String.ofList (Text.lowerChars cs) with
  | some "bin" | some "dgb" => .ok binary
  | some "graphml" | some "xml" => .ok graphml
  | some "json" => .ok json
  | some "gexf" => .ok gexf
  | _ => .error ⟨s!"cannot infer graph format from {path}"⟩

end Format

namespace Detail

/-- All levels of detail, in their order in files. -/
def all : List Detail :=
  [full, structureOnly]

/-- The exact name of a level of detail. -/
def name : Detail → String
  | full => "full"
  | structureOnly => "structure_only"

/-- The level of detail with this exact name. -/
def ofName? (s : String) : Option Detail :=
  all.find? (·.name == s)

/-- The level of detail that a text means. -/
def ofText (s : String) : Except UnsupportedFormat Detail :=
  let lower := (Text.lowerChars (Text.trimChars s.toList)).map fun c => if c = '-' then '_' else c
  match String.ofList lower with
  | "full" => .ok full
  | "structure_only" | "structure" => .ok structureOnly
  | other => .error ⟨"unknown persist mode " ++ Text.quoted other⟩

end Detail

end CallGraph
