import PoolLedger.Error
import PoolLedger.Event.Rule
import PoolLedger.Sorting

/-!
# Layouts

A layout says which keys a contract logs for each action. The sub-event opens with the contract and
the action; after them come the fields of the action in any order, and possibly some optional ones.
-/

namespace PoolLedger

/-- The keys of the sub-events of a contract, by action. -/
structure Layout where
  /-- The key that names the contract. -/
  contractKey : String := PoolLedger.contractKey
  /-- The keys that an action must carry. -/
  fields : List (String × List String)
  /-- The keys that an action may carry besides. -/
  optional : List (String × List String) := []
  /-- Whether sub-events are sorted by key before they are read. -/
  sorted : Bool := false
deriving DecidableEq, Repr

namespace Layout

/-- The keys that an action must carry, if the layout has the action. -/
def required? (l : Layout) (action : String) : Option (List String) :=
  l.fields.lookup action

/-- The keys that an action may carry besides. -/
def optionalOf (l : Layout) (action : String) : List String :=
  (l.optional.lookup action).getD []

/-- The actions of the layout in alphabetical order. -/
def actions (l : Layout) : List String :=
  sortBy (· ≤ ·) (l.fields.map (·.1))

/-- The number of attributes of an action of which the given keys are present. -/
def expectedLength (l : Layout) (action : String) (present : List String) :
    Except ReadError Nat :=
  match l.required? action with
  | none => .error (.absentField action)
  | some keys =>
    .ok (2 + keys.length + ((l.optionalOf action).eraseDups.filter present.contains).length)

/-! ## The layouts of the known contracts -/

/-- What a swap logs. -/
def swapFields : List String :=
  ["ask_asset", "commission_amount", "offer_amount", "offer_asset", "receiver", "return_amount",
    "sender", "spread_amount"]

def provideFields : List String := ["assets", "receiver", "sender", "share"]

/-- What a provision logs that can give back part of what it was offered. -/
def refundingProvideFields : List String :=
  ["assets", "receiver", "refund_assets", "sender", "share"]

def withdrawFields : List String := ["refund_assets", "sender", "withdrawn_share"]

/-- Pair contracts of the first version. -/
def pair : Layout where
  fields := [(Action.swap, swapFields), (Action.provide, provideFields),
    (Action.withdraw, withdrawFields)]

/-- Pair contracts of the second version, which log refunds. -/
def refundingPair : Layout where
  fields := [(Action.swap, swapFields), (Action.provide, refundingProvideFields),
    (Action.withdraw, withdrawFields)]

/-- Pair contracts that log a tax on some swaps and a refund on some provisions. -/
def taxedPair : Layout :=
  { pair with
    optional := [(Action.swap, ["tax_amount"]), (Action.provide, ["refund_assets"])] }

/-- Pair contracts of the first columbus chain. -/
def plainPair : Layout where
  contractKey := plainContractKey
  fields := [
    (Action.swap, ["offer_asset", "ask_asset", "offer_amount", "return_amount", "tax_amount",
      "spread_amount", "commission_amount"]),
    (Action.provide, ["assets", "share"]),
    (Action.withdraw, ["withdrawn_share", "refund_assets"])]

def transferFields : List (String × List String) :=
  [(Action.transfer, ["amount", "from", "to"]),
    (Action.transferFrom, ["amount", "by", "from", "to"])]

def token : Layout where
  fields := transferFields

/-- Token contracts of the first columbus chain. -/
def plainToken : Layout where
  contractKey := plainContractKey
  fields := transferFields

/-- The layout for chains that log attributes in any order. -/
def unordered (l : Layout) : Layout := { l with sorted := true }

end Layout

end PoolLedger
