import PumpResearch.Library.CountableTexts
import PumpResearch.Research.Contracts

/-! A concrete digest without collisions: facts are countable, so their digest may be a
text of the length of their code. -/
namespace PumpResearch.Research
open CountableTexts

deriving instance Encodable for DiscoveryFact, ObservationFact, LifecycleFact, PairFact,
  BoostFact, MetadataFact, SecurityFact, MarketContextFact, CoverageFact

deriving instance Encodable for FactDocument

end PumpResearch.Research
