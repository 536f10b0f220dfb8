import Enfold.Theory.Json
import Enfold.Theory.Checked
import Enfold.Theory.Forest
import Enfold.Theory.Run
import Enfold.Theory.Table
import Enfold.Theory.IsoTime
import Enfold.Model.Provenance
import Enfold.Model.Policy
import Enfold.Model.Schema
import Enfold.Model.StateSlots
import Enfold.Model.ClusterMerge
import Enfold.Model.CoreStore
import Enfold.Model.EmbeddingJobs
import Enfold.Model.WriteService
import Enfold.Model.Erasure
import Enfold.Model.ExtractionQueue
import Enfold.Model.Service
import Enfold.Model.Runs
import Enfold.Laws.FactSteps
import Enfold.Laws.SlotSteps
import Enfold.Laws.WriteEffect
import Enfold.Laws.ResolveEffect
import Enfold.Laws.SlotInvariant
import Enfold.Laws.SlotRuns
import Enfold.Laws.EraseEffect
import Enfold.Laws.Lineage
import Enfold.Laws.Footprint
import Enfold.Laws.Replay
import Enfold.Laws.TypedUpdate
import Enfold.Laws.MergeBranch
import Enfold.Laws.ProtectedTruth
import Enfold.Laws.ErasureFrame
import Enfold.Laws.ErasureText
import Enfold.Laws.References
import Enfold.Laws.ScopedWrite
import Enfold.Theory.JsonRead
import Enfold.Theory.CaseFold
import Enfold.Model.Extraction
import Enfold.Laws.Snapshot
import Enfold.Model.HostExtractor
import Enfold.Laws.ExtractionStages
import Enfold.Model.Requests
import Enfold.Theory.JsonScan
import Enfold.Model.Protocol
import Enfold.Laws.FrameCodec
import Enfold.Model.Daemon
import Enfold.Laws.Connection
import Enfold.Model.ExtractionProcessor
import Enfold.Model.EmbeddingProcessor
import Enfold.Laws.JobMoves
import Enfold.Laws.JobEffects
import Enfold.Laws.JobMachine
import Enfold.Laws.JobCoverage
import Enfold.Laws.JobLeases
import Enfold.Model.VecIndex
import Enfold.Theory.Mirror
import Enfold.Laws.DerivedIndex
import Enfold.Model.Ranking
import Enfold.Theory.Batches
import Enfold.Model.HybridRetrieval
import Enfold.Laws.DenseRanking
import Enfold.Model.ContextPack
import Enfold.Laws.ContextPacking
import Enfold.Laws.FactHistory
import Enfold.Theory.Closure
import Enfold.Model.Temporal
import Enfold.Laws.QueueDedup
import Enfold.Model.ExtractQueue
import Enfold.Model.QueueMigration
import Enfold.Laws.QueueMigration
import Enfold.Laws.FixedColumns
import Enfold.Laws.StateSupersession
import Enfold.Model.ReadRoutes
import Enfold.Theory.Ranked
import Enfold.Laws.SlotHistory
import Enfold.Laws.Confirmation
import Enfold.Laws.HandshakeAgreement
import Enfold.Laws.EnvelopeRoundTrip
import Enfold.Model.Envelope
import Enfold.Theory.Lines
import Enfold.Laws.CitationLines
import Enfold.Model.SearchRoutes
import Enfold.Laws.ResponseBounds
import Enfold.Laws.NamedAnchors
import Enfold.Theory.Budget
import Enfold.Theory.IsoPrint
import Enfold.Model.Projections
import Enfold.Laws.EventLists
import Enfold.Theory.Keyed
import Enfold.Laws.ChangeWindows
import Enfold.Laws.ProjectionSizes
import Enfold.Laws.EntityNames
import Enfold.Laws.EntityAgreement
import Enfold.Laws.OpenConflicts
import Enfold.Laws.ProjectionHonesty
import Enfold.Laws.PlainWrites
import Enfold.Laws.NewestKept
import Enfold.Laws.TypedAbstention
import Enfold.Laws.LifecycleFlips
import Enfold.Model.NearDuplicate
import Enfold.Laws.OpposingStates
import Enfold.Laws.BudgetTruncation
import Enfold.Model.Reflection
import Enfold.Theory.Pieces
import Enfold.Laws.CitationParsers
import Enfold.Theory.JsonGrammar
import Enfold.Model.JsonBlocks
import Enfold.Laws.JsonExtraction
import Enfold.Theory.UnionFind
import Enfold.Model.OfflineMerge
import Enfold.Laws.ClusterForest
import Enfold.Laws.Clusters
import Enfold.Laws.MergePlan
import Enfold.Laws.MergeEffect
import Enfold.Laws.OfflineMerge
import Enfold.Laws.QueueMoves
import Enfold.Laws.IssuedWrites
import Enfold.Laws.BatchScreen
import Enfold.Laws.Reenqueueing
import Enfold.Theory.Occurrence
import Enfold.Laws.CredentialScreen
import Enfold.Laws.CredentialRows
import Enfold.Laws.ExtractionSteps
import Enfold.Model.ExtractionSystem
import Enfold.Laws.ExtractionInvariants
import Enfold.Laws.ExactlyOnce
import Enfold.Laws.ExtractionRuns
import Enfold.Laws.ExtractionAttempts
import Enfold.Laws.JobReports
import Enfold.Model.ReadEndpoints
import Enfold.Laws.ConflictScopes
import Enfold.Laws.ScopedReads
import Enfold.Model.Client
import Enfold.Laws.Exchange
import Enfold.Model.DatabaseLocks
import Enfold.Laws.DatabaseLocks
import Enfold.Model.QueryEmbedder
import Enfold.Laws.QueryEmbedder
import Enfold.Laws.BestAnswers
import Enfold.Laws.SearchPlaces
import Enfold.Laws.SearchInterference
import Enfold.Model.MatrixCache
import Enfold.Laws.MatrixCache
import Enfold.Model.Workers
import Enfold.Laws.Workers
