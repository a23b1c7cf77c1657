import NullWeave.Main
import NullWeave.Proofs.Code.Forms
import NullWeave.Proofs.Weave.GuardLayout
import NullWeave.Proofs.Weave.GuardingStep
import NullWeave.Proofs.Weave.WovenLayout
import NullWeave.Proofs.Weave.Failure
import NullWeave.Proofs.Code.Reference
import NullWeave.Proofs.Weave.WovenBody
import NullWeave.Proofs.Weave.ReturnGuards
import NullWeave.Proofs.Code.Depth
import NullWeave.Proofs.Code.DepthSearch
import NullWeave.Proofs.Code.DepthAnnotation
import NullWeave.Proofs.Code.DepthOrder
import NullWeave.Proofs.Code.ShortBranches
import NullWeave.Proofs.Code.FarBranches
import NullWeave.Proofs.Weave.GuardDepth
import NullWeave.Proofs.Weave.LayoutDepth
import NullWeave.Proofs.Weave.StackDiscipline
import NullWeave.Proofs.Machine.Run
import NullWeave.Proofs.Machine.Checked
import NullWeave.Proofs.Machine.Relocation
import NullWeave.Proofs.Machine.GuardRun
import NullWeave.Proofs.Machine.Preservation
import NullWeave.Proofs.Text.LocalNames
import NullWeave.Proofs.Text.Reprinting
import NullWeave.Proofs.Weave.Handover
import NullWeave.Proofs.Weave.HandoverGuards
import NullWeave.Proofs.Weave.ProtectedReturns
import NullWeave.Proofs.Weave.HandoverDepth
import NullWeave.Proofs.Weave.Recognition
import NullWeave.Proofs.Code.Path
import NullWeave.Proofs.Weave.EntryParameters
import NullWeave.Proofs.Weave.GuardedEntry
import NullWeave.Proofs.Weave.EntryGuards
import NullWeave.Proofs.Machine.ControlPath
import NullWeave.Proofs.Code.OperationCount
import NullWeave.Proofs.Weave.OuterReturns
import NullWeave.Proofs.Text.LoadedBody
import NullWeave.Proofs.Text.LoadedProgram
import NullWeave.Proofs.Weave.GuardTrace
import NullWeave.Proofs.Weave.Rewriting
import NullWeave.Proofs.Weave.Growth
import NullWeave.Proofs.Code.PointOrder
import NullWeave.Proofs.Weave.HiddenCode
import NullWeave.Proofs.Weave.GuardCount
import NullWeave.Proofs.Weave.RepeatedEntry
import NullWeave.Proofs.Weave.SecondRun
import NullWeave.Proofs.Reordering
import NullWeave.Proofs.Weave.MethodOrder
import NullWeave.Proofs.Code.TokenRows
import NullWeave.Proofs.Code.Decoding
import NullWeave.Proofs.Code.UniqueDecoding
import NullWeave.Proofs.Text.LexedNames
import NullWeave.Proofs.Text.LexedModule
import NullWeave.Proofs.Text.LoadingSteps
import NullWeave.Proofs.Text.TypeNames
import NullWeave.Proofs.Text.Mention
import NullWeave.Proofs.Text.WrittenTypes
import NullWeave.Proofs.Text.NameCapture
import NullWeave.Proofs.Text.PrintedNames
import NullWeave.Proofs.Weave.WovenMentions
import NullWeave.Proofs.Code.TokenHistory
import NullWeave.Proofs.Graph.Consistency
import NullWeave.Proofs.Text.Spelling
import NullWeave.Proofs.Graph.FullNames
import NullWeave.Proofs.Code.FaithfulTokens
import NullWeave.Proofs.Text.TypePlaces
import NullWeave.Proofs.Graph.Renaming
import NullWeave.Proofs.BlockLayout
import NullWeave.Proofs.Text.LoadedMembers
import NullWeave.Proofs.Text.LoadingResults
import NullWeave.Proofs.Graph.Acyclic
import NullWeave.Proofs.Text.SupertypeCycles
import NullWeave.Proofs.OwnedEntries
import NullWeave.Proofs.Text.LineNumbers
import NullWeave.Proofs.Text.RenamedBody
import NullWeave.Proofs.Text.ReorderedLoads
import NullWeave.Proofs.Code.Insertion
import NullWeave.Proofs.Weave.GuardShape
import NullWeave.Proofs.Text.ArgumentMeaning
import NullWeave.Proofs.Text.RawCharacters
import NullWeave.Proofs.Text.AttributeWriting
import NullWeave.Proofs.Text.DeclarationOrder
import NullWeave.Proofs.Text.MovedLines
import NullWeave.Proofs.Text.SeparateBlocks
import NullWeave.Proofs.Graph.Reachability
import NullWeave.Proofs.Text.LoadedSlots
import NullWeave.Proofs.Weave.EntryOrder
import NullWeave.Proofs.Machine.ManagedPointers
import NullWeave.Proofs.Graph.Visibility
import NullWeave.Proofs.Weave.AwaitWarnings
import NullWeave.Proofs.Weave.ConstructedFailures
import NullWeave.Proofs.Weave.ReportedCounts
import NullWeave.Proofs.Weave.OfferedPlaces
import NullWeave.Proofs.Weave.PlannedGuards
import NullWeave.Proofs.Weave.InjectedGuards
import NullWeave.Proofs.Weave.WiderFlags
import NullWeave.Proofs.Weave.KeptGuards
import NullWeave.Proofs.Outcomes
import NullWeave.Proofs.Text.StringLiterals
import NullWeave.Proofs.Text.NumberedItems
import NullWeave.Proofs.Text.OperandFaults
import NullWeave.Proofs.Text.LabelMeaning
import NullWeave.Proofs.Text.ResolvedBodies
import NullWeave.Proofs.Text.ToldLines
import NullWeave.Proofs.Text.ErrorLines
import NullWeave.Proofs.Text.ReloadedModules
