import PoolLedger.Event.Basic
import PoolLedger.Json.Basic
import PoolLedger.Pair
import PoolLedger.Timestamp

/-!
# Records

A record is what one sub-event means for a pool: how much of either asset went in (positive) or out
(negative), how much of the share token was issued or taken back, and by whom. An empty amount means
that the leg was not touched.
-/

namespace PoolLedger

/-- The kinds of record. -/
inductive RecordKind where
  | creation
  | swap
  | provide
  | firstProvide
  | withdraw
  | transfer
deriving DecidableEq, Repr

namespace RecordKind

def all : List RecordKind :=
  [creation, swap, provide, firstProvide, withdraw, transfer]

/-- The name of a kind in stored rows. -/
def name : RecordKind → String
  | creation => "create_pair"
  | swap => "swap"
  | provide => "provide"
  | firstProvide => "initial_provide"
  | withdraw => "withdraw"
  | transfer => "transfer"

def ofName? (s : String) : Option RecordKind :=
  all.find? fun k => k.name == s

/-- The sign with which the share amount of a record counts toward the supply. -/
def shareSign : RecordKind → Int
  | provide | firstProvide => 1
  | withdraw => -1
  | _ => 0

end RecordKind

/-- A transaction as a node delivers it. -/
structure RawTx where
  hash : String
  timestamp : Option Timestamp := none
  sender : String := ""
  entries : List Entry := []
deriving DecidableEq, Repr

/-- What one sub-event means for a pool. -/
@[ext]
structure Record where
  kind : RecordKind
  hash : String := ""
  timestamp : Option Timestamp := none
  sender : String := ""
  contract : String := ""
  legs : Legs := {}
  /-- The share token. -/
  share : String := ""
  shareAmount : String := ""
  commission : String := ""
  /-- The tax that a swap paid. -/
  tax : Option Asset := none
  /-- What a provision got back. -/
  refund : Option (List Asset) := none
  /-- Whatever else is known, such as amounts of tokens that the pair does not hold. -/
  notes : Members := []
deriving DecidableEq, Repr

/-- The record with the hash and the time of its transaction. -/
def Record.stamped (r : Record) (tx : RawTx) : Record :=
  { r with hash := tx.hash, timestamp := tx.timestamp }

/-- The reserves and the share supply of a pool at some height. -/
structure Pool where
  contract : String
  assets : List Asset
  supply : String := "0"
deriving DecidableEq, Repr

end PoolLedger
