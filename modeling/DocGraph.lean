import DocGraph.File.Writer
import DocGraph.Main
import DocGraph.Proofs.GraphChanges
import DocGraph.Proofs.RecordRoundTrip
import DocGraph.Proofs.SectionGrammar
import DocGraph.Proofs.BlockPacking
import DocGraph.Proofs.FileLoading
import DocGraph.Proofs.FunctionPairs
import DocGraph.Proofs.InnerWalks
import DocGraph.Proofs.NestedCalls
import DocGraph.Proofs.RecordCanonical
import DocGraph.Proofs.DiagramPlaces
import DocGraph.Proofs.TransitionTargets
import DocGraph.Proofs.MessageReturns
import DocGraph.Proofs.TagHistory
import DocGraph.Proofs.FirstFault
import DocGraph.Proofs.BlockCuts
import DocGraph.Proofs.GroupNames
import DocGraph.Proofs.RepeatedLinking
import DocGraph.Proofs.ObtainedGraphs
import DocGraph.Proofs.EndingWalks
import DocGraph.Proofs.DueNodes
import DocGraph.Proofs.SeparateWalks
import DocGraph.Proofs.DrawnMessages
import DocGraph.Proofs.FlatTables
import DocGraph.Proofs.MacroNames
import DocGraph.Proofs.RejectedRecords
import DocGraph.Proofs.IndependentSections
import DocGraph.Proofs.BrokenReading
import DocGraph.Proofs.FailedWrites
import DocGraph.Proofs.BoundedDecoding
import DocGraph.Proofs.FlatFunctions
import DocGraph.Proofs.WordExpansion
import DocGraph.Proofs.NumberLimits
import DocGraph.Proofs.LastingItems
import DocGraph.Proofs.NextNodes
import DocGraph.Proofs.GroupTotals
import DocGraph.Proofs.ColumnWidths
import DocGraph.Proofs.ApplicationHistory
import DocGraph.Proofs.DumpedBytes
