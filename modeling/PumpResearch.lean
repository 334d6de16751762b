import PumpResearch.Archive.CopyRuns
import PumpResearch.Archive.InterruptedExports
import PumpResearch.Archive.ScopeReferences
import PumpResearch.Candidates.CoverageCap
import PumpResearch.Candidates.OrchestrationRuns
import PumpResearch.Candidates.SimulationAgreement
import PumpResearch.Candidates.TaskBudget
import PumpResearch.Candidates.TaskLiveness
import PumpResearch.Candidates.TierHistory
import PumpResearch.Discovery.LosslessDelivery
import PumpResearch.Discovery.MessageOutcomes
import PumpResearch.Discovery.Quarantine
import PumpResearch.Lifecycle.EventChain
import PumpResearch.Research.PostgresReads
import PumpResearch.Research.SlicedReads
import PumpResearch.Research.DatasetIdentity
import PumpResearch.Research.FalseLabels
import PumpResearch.Research.HotCold
import PumpResearch.Research.NoFutureInformation
import PumpResearch.Research.SplitBoundary
import PumpResearch.Research.Provenance
import PumpResearch.Scheduling.BatchLimits
import PumpResearch.Scheduling.CapacitySoundness
import PumpResearch.Scheduling.DueTimes
import PumpResearch.Scheduling.LeaseProtocol
import PumpResearch.Scheduling.CoveragePath
import PumpResearch.Scheduling.OverlayExpiry
import PumpResearch.Scheduling.WeightedRates
import PumpResearch.SecurityEnrichment.Retry
import PumpResearch.Collection.AvailabilityRuns
import PumpResearch.Collection.LifeCycles
import PumpResearch.Collection.RestartGaps
import PumpResearch.Collection.LiveSeconds
import PumpResearch.SecurityEnrichment.BudgetRuns
import PumpResearch.Scheduling.ControlRotation
import PumpResearch.SecurityEnrichment.Clusters
import PumpResearch.SecurityEnrichment.HolderMetrics
import PumpResearch.Collection.Observations
import PumpResearch.Collection.PendingBatches
import PumpResearch.Collection.PolledPairs
import PumpResearch.Collection.PollExecutions
import PumpResearch.Collection.MintEncoding
import PumpResearch.Archive.ExportParts
import PumpResearch.Candidates.PeakCoverage
import PumpResearch.MarketData.BoostRoute
import PumpResearch.MarketData.RequestRetries
import PumpResearch.MarketData.TokenPairBatches
import PumpResearch.SecurityEnrichment.NumericColumns
import PumpResearch.Lifecycle.EvidenceOrder
import PumpResearch.Reporting.ConnectivityGaps
import PumpResearch.Collection.SecuritySchedule
import PumpResearch.Collection.ContextBuckets
import PumpResearch.Collection.ContextStability
import PumpResearch.Collection.BoostCrossings
import PumpResearch.Collection.DiscoveryEvidence
import PumpResearch.Collection.BoostRepolls
import PumpResearch.Collection.EnrichmentChanges
import PumpResearch.Collection.DiscoveryCoordinator
import PumpResearch.SecurityEnrichment.TraderMetrics
import PumpResearch.Collection.SupervisedRuns
import PumpResearch.Research.DatasetPublication
