import FlowTally.Command.Basic
import FlowTally.Export.Load
import FlowTally.Main
import FlowTally.Proofs.Command.Settings
import FlowTally.Proofs.Config.Printed
import FlowTally.Proofs.Config.RoundTrip
import FlowTally.Proofs.Export.Failure
import FlowTally.Proofs.Export.Labels
import FlowTally.Proofs.Export.Loaded
import FlowTally.Proofs.Export.Manifest
import FlowTally.Proofs.Export.Publish
import FlowTally.Proofs.Export.RoundTrip
import FlowTally.Proofs.Export.RunId
import FlowTally.Proofs.Files.Operations
import FlowTally.Proofs.Graph.Calls
import FlowTally.Proofs.Graph.Database
import FlowTally.Proofs.Graph.DepthFirst
import FlowTally.Proofs.Graph.EntryPoints
import FlowTally.Proofs.Graph.Export
import FlowTally.Proofs.Graph.File
import FlowTally.Proofs.Graph.FlowOrder
import FlowTally.Proofs.Graph.FlowPaths
import FlowTally.Proofs.Graph.Indexed
import FlowTally.Proofs.Graph.NormalForm
import FlowTally.Proofs.Graph.Reordered
import FlowTally.Proofs.Graph.Store
import FlowTally.Proofs.Graph.Sweep
import FlowTally.Proofs.Json.Depth
import FlowTally.Proofs.Json.Printer
import FlowTally.Proofs.Json.Text
import FlowTally.Proofs.Json.Values
import FlowTally.Proofs.Json.Written
import FlowTally.Proofs.Key.Canonical
import FlowTally.Proofs.Key.Text
import FlowTally.Proofs.Matrix.Counts
import FlowTally.Proofs.Matrix.Crop
import FlowTally.Proofs.Matrix.Dense
import FlowTally.Proofs.Matrix.Growth
import FlowTally.Proofs.Matrix.Listing
import FlowTally.Proofs.Matrix.Market
import FlowTally.Proofs.Matrix.Operations
import FlowTally.Proofs.Matrix.Presentation
import FlowTally.Proofs.Matrix.RoundTrip
import FlowTally.Proofs.Pattern.Anchored
import FlowTally.Proofs.Pattern.Class
import FlowTally.Proofs.Pattern.Cut
import FlowTally.Proofs.Pattern.Expression
import FlowTally.Proofs.Pattern.Language
import FlowTally.Proofs.Phase
import FlowTally.Proofs.Run.Accounts
import FlowTally.Proofs.Run.Alignment
import FlowTally.Proofs.Run.Calls
import FlowTally.Proofs.Run.Cancellation
import FlowTally.Proofs.Run.Complete
import FlowTally.Proofs.Run.GraphCounts
import FlowTally.Proofs.Run.Modes
import FlowTally.Proofs.Run.Outcomes
import FlowTally.Proofs.Run.Records
import FlowTally.Proofs.Run.Rerun
import FlowTally.Proofs.Run.Totals
import FlowTally.Proofs.Sorting
import FlowTally.Proofs.Source.FromGraph
import FlowTally.Proofs.Source.Stores
import FlowTally.Proofs.Text.Digits
import FlowTally.Proofs.Time.Calendar
import FlowTally.Proofs.Time.Text
import FlowTally.Proofs.Vocabulary
import FlowTally.Proofs.Vocabulary.Requests
import FlowTally.Proofs.Yaml.Line
import FlowTally.Proofs.Yaml.Plain
import FlowTally.Proofs.Yaml.Quoted
import FlowTally.Proofs.Yaml.Scalar
import FlowTally.Proofs.Yaml.Scan
import FlowTally.Proofs.Yaml.Tree
import FlowTally.Source.Memory
