import PoolLedger.Amount
import PoolLedger.Store.Basic

/-!
# Flows

The records of a pool add up: what went in and out of either asset, and how much of the share token
was issued. A `Flow` is such a sum, of one record or of many. `Store.pools` gives the state of every
pool that the records of a range of heights imply.
-/

namespace PoolLedger

/-- What records move in a pool. -/
structure Flow where
  contract : String
  asset0 : String
  asset1 : String
  amount0 : Int
  amount1 : Int
  /-- How much of the share token is issued, less what is taken back. -/
  share : Int
deriving DecidableEq, Repr

def RecordRow.flow (r : RecordRow) : Except ReadError Flow := do
  let amount0 ← Amount.read r.asset0Amount
  let amount1 ← Amount.read r.asset1Amount
  let share ← Amount.read r.shareAmount
  return {
    contract := r.contract, asset0 := r.asset0, asset1 := r.asset1, amount0, amount1,
    share := r.kind.shareSign * share }

namespace Flow

/-- The first address that is not empty. -/
def firstName (a b : String) : String :=
  if a = "" then b else a

def add (a b : Flow) : Flow where
  contract := a.contract
  asset0 := firstName a.asset0 b.asset0
  asset1 := firstName a.asset1 b.asset1
  amount0 := a.amount0 + b.amount0
  amount1 := a.amount1 + b.amount1
  share := a.share + b.share

def into (f : Flow) : List Flow → List Flow
  | [] => [f]
  | g :: rest => if g.contract = f.contract then g.add f :: rest else g :: f.into rest

/-- The flows of all pools, in the order in which they first occur. -/
def total (flows : List Flow) : List Flow :=
  flows.foldl (fun sums f => f.into sums) []

/-- The pool that a flow from nothing fills. -/
def pool (f : Flow) : Except ReadError Pool := do
  let amount0 ← Amount.write f.amount0
  let amount1 ← Amount.write f.amount1
  let supply ← Amount.write f.share
  return {
    contract := f.contract
    assets := [{ addr := f.asset0, amount := amount0 }, { addr := f.asset1, amount := amount1 }]
    supply }

end Flow

namespace Store

/-- The records of a chain in a range of heights. -/
def recordsIn (s : Store) (chain : String) (first last : Int) : List RecordRow :=
  s.records.filter fun r => r.chain == chain && first ≤ r.height && r.height ≤ last

/-- The flows of the pools of a chain in a range of heights. -/
def flows (s : Store) (chain : String) (first last : Int) : Except ReadError (List Flow) := do
  return Flow.total (← (s.recordsIn chain first last).mapM (·.flow))

/-- The pools that the records of a range of heights imply. -/
def impliedPools (s : Store) (chain : String) (first last : Int) :
    Except StoreError (List Pool) := do
  if !(fits first && fits last) then throw .outOfRange
  (do (← s.flows chain first last).mapM (·.pool) : Except ReadError _).mapError .amount

end Store

end PoolLedger
