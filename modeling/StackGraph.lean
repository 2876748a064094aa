import StackGraph.Main
import StackGraph.Progress
import StackGraph.Proofs.Graph.Reachability
import StackGraph.Proofs.Graph.Cycles
import StackGraph.Proofs.Build.Merging
import StackGraph.Proofs.Build.Resolution
import StackGraph.Proofs.Build.Evidence
import StackGraph.Proofs.Build.Dependencies
import StackGraph.Proofs.Extraction
import StackGraph.Proofs.Build.Diagnostics
import StackGraph.Proofs.Build.Accounting
import StackGraph.Proofs.Graph.Paths
import StackGraph.Proofs.Graph.PathKeys
import StackGraph.Proofs.Graph.Impact
import StackGraph.Proofs.Graph.CycleEdges
import StackGraph.Proofs.Export.EdgeStatements
import StackGraph.Proofs.Graph.Layers
import StackGraph.Proofs.Build.Absorption
import StackGraph.Proofs.Build.Unread
import StackGraph.Proofs.Build.BrokenFile
import StackGraph.Proofs.Build.Rearrangement
import StackGraph.Proofs.Directory
import StackGraph.Proofs.Build.Files
import StackGraph.Proofs.Findings
import StackGraph.Proofs.Build.MissingBlock
import StackGraph.Proofs.Build.ExchangedOutputs
import StackGraph.Proofs.Export.Markup
import StackGraph.Proofs.Export.Payload
import StackGraph.Proofs.Export.Lines
import StackGraph.Proofs.Export.Quoting
import StackGraph.Report.Reader
import StackGraph.Proofs.Digits
import StackGraph.Proofs.Timestamp
import StackGraph.Proofs.Json.Roundtrip
import StackGraph.Proofs.Report.Roundtrip
import StackGraph.Proofs.Graph.Additions
import StackGraph.Proofs.Report.Consistency
import StackGraph.Proofs.Descent
import StackGraph.Proofs.FileTree
import StackGraph.Proofs.Discovery
import StackGraph.Proofs.Settings.Precedence
import StackGraph.Proofs.Graph.ForcedLayers
import StackGraph.Proofs.Build.OwnName
import StackGraph.Proofs.Settings.Checks
import StackGraph.Proofs.Walk
import StackGraph.Proofs.FollowedLinks
import StackGraph.Proofs.Analysis
import StackGraph.Proofs.Graph.LayerDepth
import StackGraph.Proofs.RelativePath
import StackGraph.Proofs.AbsolutePath
import StackGraph.Proofs.Build.SelfDeclarations
import StackGraph.Proofs.Occurrences.Plain
import StackGraph.Proofs.Occurrences.Index
import StackGraph.Proofs.Lowering
import StackGraph.Proofs.Graph.Suggestions
import StackGraph.Proofs.Occurrences.Backtracking
import StackGraph.Proofs.Export.DotOutline
import StackGraph.Proofs.Export.MermaidOutline
import StackGraph.Proofs.Export.LinkStyles
import StackGraph.Proofs.Export.Separation
import StackGraph.Proofs.Build.Splitting
import StackGraph.Proofs.Build.AnyOrder
import StackGraph.Proofs.Export.ScriptData
import StackGraph.Proofs.Export.ScriptElement
import StackGraph.Proofs.Build.UnresolvedNames
import StackGraph.Proofs.Classification
import StackGraph.Proofs.ModuleDirectory
import StackGraph.Proofs.Settings.Priority
import StackGraph.Proofs.Graph.Rotation
import StackGraph.Proofs.Export.QuotationMarks
import StackGraph.Proofs.FollowedLinks
