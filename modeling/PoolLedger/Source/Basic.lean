import PoolLedger.Node.Basic
import PoolLedger.Record

/-!
# Sources of blocks and pools

A source tells the height that it has reached, the transactions of a block, and the pools of given
pairs at a height. It may change with each question, and any question may fail.
-/

namespace PoolLedger

/-- Questions to a source that may fail. -/
abbrev Querying (σ : Type) := ExceptT NodeError (StateM σ)

/-- Where blocks and pools come from. -/
structure Source (σ : Type) where
  /-- The height that the source has reached. -/
  height : Querying σ Int
  /-- The successful transactions of a block, in order. -/
  transactions : Int → Querying σ (List RawTx)
  /-- The pools of some pairs at a height. -/
  pools : Int → List Pair → Querying σ (List Pool)

end PoolLedger
