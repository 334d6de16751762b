import PumpResearch.Library.Binary64
import PumpResearch.Library.NearestRanks
import PumpResearch.SecurityEnrichment.HolderMetrics

/-! Metrics of the trades of a window. The rank of a percentile is computed in floating point;
amounts are exact. -/
namespace PumpResearch.SecurityEnrichment
open KeyedTotals NearestRanks

/-! ### Metrics -/

section Amounts
variable (trades : List TradeFact)

end Amounts

/-! ### Wallets -/

section Wallets
variable (trades : List TradeFact)

end Wallets

/-! ### Order of arrival -/

section Permuted
variable {trades trades' : List TradeFact}

end Permuted

/-! ### Coherence -/

end PumpResearch.SecurityEnrichment
