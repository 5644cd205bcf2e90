import CallGraph.Document.Binary
import CallGraph.Document.Gexf
import CallGraph.Document.Graphml
import CallGraph.Document.Json

/-!
# Documents in all formats
-/

namespace CallGraph

namespace Document

/-- The bytes of a document in a format. -/
def write (doc : Document) : Format → List UInt8
  | .binary => Binary.write doc
  | .graphml => Graphml.write doc
  | .json => doc.toJson
  | .gexf => Gexf.write doc

/-- Reads a document in a format. -/
def read (format : Format) (bytes : List UInt8) : Except DocumentFault Document :=
  match format with
  | .binary => Binary.read bytes
  | .graphml => Graphml.read bytes
  | .json => ofJson bytes
  | .gexf => Gexf.read bytes

end Document

end CallGraph
