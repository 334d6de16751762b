import PumpResearch.Library.KeyedTable
import PumpResearch.Scheduling.Capacity

/-! The stored rows of the scheduler. Columns that the tables set and clear together are one
optional value. -/
namespace PumpResearch.Scheduling
open KeyedTable

/-- Coverage of a mapped schedule; a legacy schedule has none. -/
structure CoverageProjection where
  coverageClass : CoverageClass
  admittedAt : Int
  decidedAt : Int
  policySha256 : String
deriving DecidableEq

/-- A finite scheduling override of a candidate. -/
structure CandidateCoverage where
  expiresAt : Int
  intervalSeconds : Nat
  tierEventId : Uuid
  interval_pos : 0 < intervalSeconds

instance decidableEqCandidateCoverage : DecidableEq CandidateCoverage := fun a b =>
  decidable_of_iff (a.expiresAt = b.expiresAt ∧ a.intervalSeconds = b.intervalSeconds ∧
    a.tierEventId = b.tierEventId) (by
      cases a
      cases b
      simp)

/-- The batch that holds a schedule, and until when. -/
structure PollLease where
  leaseId : Uuid
  expiresAt : Int
deriving DecidableEq

structure PollSchedule where
  tokenId : Uuid
  lifecycleState : LifecycleState
  stateDecidedAt : Int
  coverage : Option CoverageProjection
  coverageNextTransitionAt : Option Int
  candidateCoverage : Option CandidateCoverage
  priority : Nat
  nextDueAt : Option Int
  lastDueAt : Option Int
  lastStartedAt : Option Int
  lastCompletedAt : Option Int
  attemptCount : Nat
  lastControlScanAt : Option Int
  controlScanCount : Nat
  lease : Option PollLease
  capacityDecisionId : Option Uuid
  targetIntervalSeconds : Option Nat
  effectiveIntervalSeconds : Option Nat
  configurationSha256 : String
  updatedAt : Int
deriving DecidableEq

abbrev ScheduleTable := Table PollSchedule.tokenId

def PollSchedule.coverageClass (schedule : PollSchedule) : Option CoverageClass :=
  schedule.coverage.map (·.coverageClass)

/-- The override is live at an instant. -/
def PollSchedule.OverlayActive (now : Int) (schedule : PollSchedule) : Prop :=
  ∃ overlay ∈ schedule.candidateCoverage, now < overlay.expiresAt

instance PollSchedule.decidableOverlayActive (now : Int) :
    DecidablePred (PollSchedule.OverlayActive now) :=
  fun schedule => inferInstanceAs (Decidable (∃ overlay ∈ schedule.candidateCoverage, _))

/-! ### Batches -/

structure Token where
  id : Uuid
  chain : String
  address : String
deriving DecidableEq

def dexScreenerProvider : String := "dexscreener"

/-- `batch_kind`, with the `control_window_start` that only control batches have. -/
inductive BatchKind where
  | ordinary
  | retiredControl (windowStart : Int)
deriving DecidableEq

def BatchKind.controlWindowStart : BatchKind → Option Int
  | .ordinary => none
  | .retiredControl windowStart => some windowStart

structure PollBatch where
  id : Uuid
  collectorRunId : Option Uuid
  provider : String
  chain : String
  claimedAt : Int
  leaseExpiresAt : Int
  reservedRequestCapacity : Nat
  kind : BatchKind
  capacityDecisionId : Option Uuid
  configurationSha256 : String
deriving DecidableEq

structure PollBatchMember where
  claimedAt : Int
  batchId : Uuid
  tokenId : Uuid
  dueAt : Int
  lifecycleState : LifecycleState
  coverageClass : Option CoverageClass
  priority : Nat
  claimLatenessMs : Nat
  previousBatchId : Option Uuid
  capacityDecisionId : Option Uuid
  targetIntervalSeconds : Option Nat
  effectiveIntervalSeconds : Option Nat
deriving DecidableEq

/-- The primary key of a membership. -/
def PollBatchMember.key (member : PollBatchMember) : Int × Uuid × Uuid :=
  (member.claimedAt, member.batchId, member.tokenId)

/-- The outcomes of a batch; `partly` is the source's PARTIAL. -/
inductive PollOutcome where
  | succeeded
  | empty
  | partly
  | failed
  | throttled
  | malformed
  | cancelled
deriving DecidableEq, Repr

structure PollBatchOutcome where
  batchId : Uuid
  apiRequestLogId : Option Uuid
  outcome : PollOutcome
  completedAt : Int
  memberCount : Nat
  observationLatenessMinMs : Nat
  observationLatenessMaxMs : Nat
  observationLatenessMeanMs : ℚ
  failureDetail : Option String
  configurationSha256 : String
deriving DecidableEq

/-! ### Evidence of decisions -/

instance CoverageClass.fintype : Fintype CoverageClass := .ofList all mem_all

deriving instance DecidableEq for CapacityPlan

structure SchedulerCapacityDecision where
  id : Uuid
  idempotencyKey : String
  decidedAt : Int
  capacityMode : CapacityMode
  policySha256 : String
  plan : CapacityPlan
deriving DecidableEq

/-- What the detail of a coverage decision says of its occasion. -/
inductive DecisionContext where
  | none
  | epoch (number : Int)
  | batch (batchId : Uuid)
  | lifecycle (previousState : Option LifecycleState) (newState : LifecycleState)
deriving DecidableEq

structure CoverageDecision where
  id : Uuid
  collectionEpochId : Option Uuid
  collectorRunId : Option Uuid
  tokenId : Uuid
  idempotencyKey : String
  previousCoverageClass : Option CoverageClass
  newCoverageClass : CoverageClass
  lifecycleState : LifecycleState
  admittedAt : Int
  decidedAt : Int
  coverageEffectiveAt : Int
  reasonCode : String
  policySha256 : String
  capacityDecisionId : Option Uuid
  targetIntervalSeconds : Option Nat
  effectiveIntervalSeconds : Option Nat
  nextDueAt : Option Int
  lifecycleStateDecidedAt : Int
  coverageNextTransitionAt : Option Int
  context : DecisionContext
deriving DecidableEq

structure PollScheduleDecision where
  idempotencyKey : String
  collectionEpochId : Option Uuid
  tokenId : Uuid
  previousState : Option LifecycleState
  newState : LifecycleState
  previousDueAt : Option Int
  newDueAt : Option Int
  decidedAt : Int
  reasonCode : String
  capacityDecisionId : Option Uuid
  targetIntervalSeconds : Option Nat
  effectiveIntervalSeconds : Option Nat
  configurationSha256 : String
deriving DecidableEq

/-- What the scheduler reads of an immutable lifecycle event. -/
structure LifecycleEvent where
  tokenId : Uuid
  newState : String
  inputWatermark : Int
deriving DecidableEq

structure CollectorRun where
  id : Uuid
  collectionEpochId : Uuid
deriving DecidableEq

/-- The tables that the scheduler reads and writes. -/
structure SchedulerStore where
  tokens : Table Token.id
  schedules : ScheduleTable
  batches : Table PollBatch.id
  members : Table PollBatchMember.key
  outcomes : Table PollBatchOutcome.batchId
  capacityDecisions : Table SchedulerCapacityDecision.id
  coverageDecisions : Table CoverageDecision.id
  scheduleDecisions : Table PollScheduleDecision.idempotencyKey
  lifecycleEvents : List LifecycleEvent
  collectorRuns : Table CollectorRun.id

end PumpResearch.Scheduling
