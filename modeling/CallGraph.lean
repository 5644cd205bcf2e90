import CallGraph.Analysis.Centrality
import CallGraph.Analysis.Components
import CallGraph.Analysis.Cycles
import CallGraph.Analysis.Limits
import CallGraph.Analysis.Neighbourhood
import CallGraph.Analysis.Paths
import CallGraph.Analysis.Reach
import CallGraph.Analysis.Roles
import CallGraph.Analysis.Summary
import CallGraph.Bytes.Codec
import CallGraph.Calendar.Instant
import CallGraph.Calendar.Reader
import CallGraph.Code.Data
import CallGraph.Code.Kind
import CallGraph.Code.Object
import CallGraph.Command.Arguments
import CallGraph.Command.Basic
import CallGraph.Command.Report
import CallGraph.Command.Run
import CallGraph.Command.Usage
import CallGraph.Construction.Build
import CallGraph.Construction.Progress
import CallGraph.Construction.Scope
import CallGraph.Data.Basic
import CallGraph.Data.Catalogue
import CallGraph.Data.Ordered
import CallGraph.Data.TextMap
import CallGraph.Document.Basic
import CallGraph.Document.Binary
import CallGraph.Document.File
import CallGraph.Document.Format
import CallGraph.Document.Gexf
import CallGraph.Document.Graphml
import CallGraph.Document.Json
import CallGraph.Error
import CallGraph.Files.Basic
import CallGraph.Files.Contents
import CallGraph.Files.Path
import CallGraph.Files.Tree
import CallGraph.Graph.Basic
import CallGraph.Json.Literal
import CallGraph.Json.Numeral
import CallGraph.Json.Printer
import CallGraph.Json.Reader
import CallGraph.Main
import CallGraph.Number.Binary64
import CallGraph.Number.Decimal
import CallGraph.Number.FixedPlaces
import CallGraph.Number.Shortest
import CallGraph.Settings
import CallGraph.Settings.File
import CallGraph.Store.Basic
import CallGraph.Store.Database
import CallGraph.Store.Flag
import CallGraph.Store.Memory
import CallGraph.Store.Populate
import CallGraph.Store.Row
import CallGraph.Text.Blank
import CallGraph.Text.CaseTable
import CallGraph.Text.CodePointSet
import CallGraph.Text.LowerCase
import CallGraph.Text.PrintTable
import CallGraph.Text.Quoted
import CallGraph.Text.Utf8
import CallGraph.Toml.Quoted
import CallGraph.Toml.Reader
import CallGraph.Toml.Scalar
import CallGraph.Toml.Table
import CallGraph.Xml.Content
import CallGraph.Xml.Layout
import CallGraph.Xml.Scanner
import CallGraph.Proofs.Analysis.Annotation
import CallGraph.Proofs.Analysis.Circuits
import CallGraph.Proofs.Analysis.Components
import CallGraph.Proofs.Analysis.Connection
import CallGraph.Proofs.Analysis.CycleLength
import CallGraph.Proofs.Analysis.Cycles
import CallGraph.Proofs.Analysis.CyclicParts
import CallGraph.Proofs.Analysis.Distance
import CallGraph.Proofs.Analysis.Draining
import CallGraph.Proofs.Analysis.ElementaryCycles
import CallGraph.Proofs.Analysis.Enumeration
import CallGraph.Proofs.Analysis.Measures
import CallGraph.Proofs.Analysis.Neighbourhood
import CallGraph.Proofs.Analysis.Reachability
import CallGraph.Proofs.Analysis.Roles
import CallGraph.Proofs.Analysis.SameGraph
import CallGraph.Proofs.Analysis.Sampling
import CallGraph.Proofs.Analysis.ShortestPaths
import CallGraph.Proofs.Analysis.SimplePaths
import CallGraph.Proofs.Analysis.Summary
import CallGraph.Proofs.Analysis.Unblocking
import CallGraph.Proofs.Bytes.Codec
import CallGraph.Proofs.Calendar.Date
import CallGraph.Proofs.Calendar.Reader
import CallGraph.Proofs.Code.Data
import CallGraph.Proofs.Construction.Build
import CallGraph.Proofs.Construction.DeclarationOrder
import CallGraph.Proofs.Construction.InputOrder
import CallGraph.Proofs.Construction.Lightweight
import CallGraph.Proofs.Construction.Names
import CallGraph.Proofs.Construction.OwnName
import CallGraph.Proofs.Construction.Rules
import CallGraph.Proofs.Construction.Scope
import CallGraph.Proofs.Construction.Screening
import CallGraph.Proofs.Data.Catalogue
import CallGraph.Proofs.Data.Grouping
import CallGraph.Proofs.Data.Runs
import CallGraph.Proofs.Data.Sorting
import CallGraph.Proofs.Data.TextMap
import CallGraph.Proofs.Document.Binary
import CallGraph.Proofs.Document.Conversion
import CallGraph.Proofs.Document.Cuts
import CallGraph.Proofs.Document.EdgeAnnotations
import CallGraph.Proofs.Document.File
import CallGraph.Proofs.Document.Gexf
import CallGraph.Proofs.Document.GexfAnnotations
import CallGraph.Proofs.Document.GexfDetail
import CallGraph.Proofs.Document.GexfParts
import CallGraph.Proofs.Document.Graph
import CallGraph.Proofs.Document.Graphml
import CallGraph.Proofs.Document.GraphmlAnnotations
import CallGraph.Proofs.Document.GraphmlParts
import CallGraph.Proofs.Document.Json
import CallGraph.Proofs.Document.Openings
import CallGraph.Proofs.Document.Parts
import CallGraph.Proofs.Document.Range
import CallGraph.Proofs.Document.Records
import CallGraph.Proofs.Files.Contents
import CallGraph.Proofs.Files.Tree
import CallGraph.Proofs.Graph.Degrees
import CallGraph.Proofs.Graph.Equality
import CallGraph.Proofs.Graph.Nodes
import CallGraph.Proofs.Graph.Operations
import CallGraph.Proofs.Graph.Parts
import CallGraph.Proofs.Graph.Representation
import CallGraph.Proofs.Graph.Restriction
import CallGraph.Proofs.Graph.Views
import CallGraph.Proofs.Json.Layout
import CallGraph.Proofs.Json.Literal
import CallGraph.Proofs.Json.Parts
import CallGraph.Proofs.Json.Reader
import CallGraph.Proofs.Number.Digits
import CallGraph.Proofs.Store.Contents
import CallGraph.Proofs.Store.Filling
import CallGraph.Proofs.Store.Placeholders
import CallGraph.Proofs.Store.Populate
import CallGraph.Proofs.Store.Requests
import CallGraph.Proofs.Store.Row
import CallGraph.Proofs.Text.LowerCase
import CallGraph.Proofs.Text.Sigma
import CallGraph.Proofs.Text.Utf8
import CallGraph.Proofs.Xml.Content
import CallGraph.Proofs.Xml.Forest
import CallGraph.Proofs.Xml.Nesting
import CallGraph.Proofs.Xml.Parts
import CallGraph.Proofs.Xml.Pruning
import CallGraph.Proofs.Xml.Scanner
