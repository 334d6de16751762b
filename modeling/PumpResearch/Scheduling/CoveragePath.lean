import PumpResearch.Library.Results
import PumpResearch.Library.Staircase
import PumpResearch.Scheduling.System

/-! The path of coverage classes of each lifecycle state. Class and next transition are the stage
and the next bound of one staircase. -/
namespace PumpResearch.Scheduling
open Results Staircase

namespace AdaptivePollingPolicy
variable (policy : AdaptivePollingPolicy)

section Known
variable {state : LifecycleState} {admittedAt stateDecidedAt now : Int}
  (hadmitted : admittedAt ≤ now) (hdecided : state = .fading → stateDecidedAt ≤ now)
include hadmitted hdecided

end Known

section Chain
variable {state : LifecycleState} {admittedAt stateDecidedAt : Int}

end Chain

end AdaptivePollingPolicy

end PumpResearch.Scheduling
