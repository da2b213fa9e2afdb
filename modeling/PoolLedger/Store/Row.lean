import PoolLedger.Json.Writer
import PoolLedger.Record

/-!
# Rows

The store keeps six kinds of row, each of one chain. A record becomes a row of texts: its tax, its
refund and its notes are written as JSON, and are absent when there is nothing to write.
-/

namespace PoolLedger

/-- A known pair. -/
structure PairRow where
  chain : String
  contract : String
  asset0 : String
  asset1 : String
  share : String
deriving DecidableEq, Repr

/-- A record of a block. -/
structure RecordRow where
  chain : String
  height : Int
  kind : RecordKind
  hash : String
  sender : String
  contract : String
  asset0 : String
  asset0Amount : String
  asset1 : String
  asset1Amount : String
  share : String
  shareAmount : String
  commission : String
  tax : Option String
  refund : Option String
  notes : Option String
deriving DecidableEq, Repr

/-- A pool as a node had it at some height. -/
structure PoolRow where
  chain : String
  height : Int
  contract : String
  asset0Amount : String
  asset1Amount : String
  supply : String
deriving DecidableEq, Repr

/-- The height up to which a chain has been followed. -/
structure ProgressRow where
  chain : String
  height : Int
deriving DecidableEq, Repr

/-- A pair that is exempt from validation. -/
structure ExemptRow where
  chain : String
  contract : String
deriving DecidableEq, Repr

/-- A transaction that could not be read. -/
structure FailureRow where
  chain : String
  height : Int
  hash : String
  category : String
  message : Option String
  /-- Where in the program the failure arose, if that is recorded. -/
  stack : Option String := none
  resolved : Bool := false
deriving DecidableEq, Repr

/-! ## Rows of values -/

def Asset.toJson (a : Asset) : Json :=
  .obj [("addr", .str a.addr), ("amount", .str a.amount)]

def PairRow.ofPair (chain : String) (p : Pair) : PairRow where
  chain
  contract := p.contract
  asset0 := p.first
  asset1 := p.second
  share := p.share

def PairRow.toPair (r : PairRow) : Pair where
  contract := r.contract
  share := r.share
  first := r.asset0
  second := r.asset1

/-- The text of a refund, unless it is empty. -/
def refundText : Option (List Asset) → Option String
  | none | some [] => none
  | some assets => some (Json.arr (assets.map Asset.toJson)).write

/-- The text of notes, unless there are none. -/
def notesText : Members → Option String
  | [] => none
  | notes => some (Json.obj notes).write

def RecordRow.ofRecord (chain : String) (height : Int) (r : Record) : RecordRow where
  chain
  height
  kind := r.kind
  hash := r.hash
  sender := r.sender
  contract := r.contract
  asset0 := r.legs.first.addr
  asset0Amount := r.legs.first.amount
  asset1 := r.legs.second.addr
  asset1Amount := r.legs.second.amount
  share := r.share
  shareAmount := r.shareAmount
  commission := r.commission
  tax := r.tax.map fun a => a.toJson.write
  refund := refundText r.refund
  notes := notesText r.notes

/-- The row of a pool, if it has two assets. -/
def PoolRow.ofPool? (chain : String) (height : Int) (p : Pool) : Option PoolRow :=
  match p.assets with
  | a :: b :: _ => some {
      chain, height, contract := p.contract, asset0Amount := a.amount, asset1Amount := b.amount,
      supply := p.supply }
  | _ => none

end PoolLedger
