import PoolLedger.Node.Client
import PoolLedger.Node.Transaction
import PoolLedger.Source.Basic

/-!
# Nodes as sources

`Client.source` asks a node: for its latest block, for the transactions of a block, and for the
state of one pool contract after another.
-/

namespace PoolLedger

namespace Client

variable {σ : Type}

def latestPath : String := "/cosmos/base/tendermint/v1beta1/blocks/latest"

/-- Where the transactions of a block are found. -/
def blockPath (height : Int) : String := s!"/cosmos/tx/v1beta1/txs/block/{height}"

/-- The question for a pool, in the encoding that paths take. -/
def poolQuery : String := "eyJwb29sIjoge319"

def poolPath (contract : String) : String :=
  s!"/cosmwasm/wasm/v1/contract/{contract}/smart/{poolQuery}"

/-- The height in the answer for the latest block. -/
def readHeight (data : Json) : Except NodeError Int := do
  let ms ← data.members
  let block := ((ms.present? "block").orElse fun _ => ms.present? "sdk_block").getD (.obj [])
  (← (← block.member "header").member "height").integer

/-- The transactions in the answer for a block. -/
def readBlock (data : Json) : Except NodeError (List RawTx) := do
  readTransactions (← Json.elementsOf (← data.members) "tx_responses")

/-- The two assets of a pool, or nothing if it does not have two. -/
def poolAssets (pool : Members) : Except NodeError (Option (Json × Json)) :=
  match (pool.present? "assets").getD (.arr []) with
  | .arr [a, b] => .ok (some (a, b))
  | .arr _ => .ok none
  | .obj [_, _] => .error (.absentMember "0")
  | .obj _ => .ok none
  | .str s => if s.points.length = 2 then .error .wrongKind else .ok none
  | _ => .error .wrongKind

/-- The pool of a pair in the answer for it; the node gives the amounts in the order of the pair. -/
def readPool (pair : Pair) (data : Json) : Except NodeError Pool := do
  let pool ← (((← data.members).present? "data").getD (.obj [])).members
  match ← poolAssets pool with
  | none => throw (.malformedPool pair.contract (Json.obj pool).display)
  | some (a, b) =>
    let first ← (← a.member "amount").plain
    let second ← (← b.member "amount").plain
    return {
      contract := pair.contract
      assets := [{ addr := pair.first, amount := first }, { addr := pair.second, amount := second }]
      supply := ← ((pool.get? "total_share").getD (.str "0")).plain }

def pool (c : Client σ) (height : Int) (pair : Pair) : Asking σ Pool := do
  readPool pair (← c.get (poolPath pair.contract) (some height))

def source (c : Client σ) : Source (Line σ) where
  height := do readHeight (← c.get latestPath none)
  transactions height := do readBlock (← c.get (blockPath height) none)
  pools height pairs := pairs.mapM (c.pool height)

end Client

end PoolLedger
