import PoolLedger.Decimal
import PoolLedger.Reading.Shape
import PoolLedger.Record

/-!
# What the actions of a pair mean

All deployments agree on what a swap, a provision and a withdrawal are; they differ in taxes,
refunds and fees. A `Strategy` says which of these apply, and `Strategy.handle` turns the fields of
an action into a record in the asset order of the pair.
-/

namespace PoolLedger

/-- What the actions of the pairs of a deployment mean. -/
inductive Strategy where
  /-- The amounts are what they are said to be. -/
  | plain
  /-- A provision may be refunded in part; tokens whose address has the prefix are pulled net of the
  refund. -/
  | reconciling (tokenPrefix : String)
  /-- Swaps pay a tax, and withdrawals a fee that the event does not tell. -/
  | feeDeducting
  /-- Some swaps pay a tax, and some provisions are refunded in part. -/
  | taxedReconciling (tokenPrefix : String)
deriving DecidableEq, Repr

namespace Strategy

/-- How messages call a strategy. -/
def name : Strategy → String
  | plain => "default"
  | reconciling _ => "refund_reconciling"
  | feeDeducting => "columbus_v1"
  | taxedReconciling _ => "columbus_v2"

/-- Whether swaps may pay a tax. -/
def isTaxed : Strategy → Bool
  | feeDeducting | taxedReconciling _ => true
  | _ => false

/-! ## Swaps -/

/-- The legs of a swap: what comes in of the asset offered and what goes out of the other. -/
def swapLegs (pair : Pair) (offersSecond : Bool) (inflow outflow : String) : Legs :=
  if offersSecond then
    { first := { addr := pair.first, amount := outflow },
      second := { addr := pair.second, amount := inflow } }
  else
    { first := { addr := pair.first, amount := inflow },
      second := { addr := pair.second, amount := outflow } }

/-- The record of a swap in which the return is what was said. -/
def plainSwap (fields : Fields) (pair : Pair) : Except ReadError Record := do
  let offered ← fields.value "offer_asset"
  let inflow ← Amount.write (← Amount.read (← fields.value "offer_amount"))
  let outflow ← Amount.negate (← fields.value "return_amount")
  return {
    kind := .swap
    sender := (fields.get? "sender").getD ""
    contract := pair.contract
    legs := swapLegs pair (offered = pair.second) inflow outflow
    commission := ← fields.value "commission_amount" }

/-- The record of a swap whose return also paid a tax, if the event tells one. -/
def taxedSwap (fields : Fields) (pair : Pair) : Except ReadError Record := do
  let r ← plainSwap fields pair
  match fields.get? "tax_amount" with
  | none => return r
  | some tax =>
    let returned ← Amount.read (← fields.value "return_amount")
    let outflow ← Amount.write (-(returned + (← Amount.read tax)))
    if (← fields.value "offer_asset") = pair.second then
      return {
        r with
        legs := { r.legs with first := { addr := pair.first, amount := outflow } }
        tax := some { addr := pair.first, amount := tax } }
    else
      return {
        r with
        legs := { r.legs with second := { addr := pair.second, amount := outflow } }
        tax := some { addr := pair.second, amount := tax } }

def swap (s : Strategy) (fields : Fields) (pair : Pair) : Except ReadError Record :=
  if s.isTaxed then taxedSwap fields pair else plainSwap fields pair

/-! ## Provisions -/

/-- The record of a provision of which nothing is refunded. -/
def plainProvide (fields : Fields) (pair : Pair) : Except ReadError Record := do
  let provided ← Asset.ofCoinPair (← fields.value "assets")
  return {
    kind := .provide
    sender := (fields.get? "sender").getD ""
    contract := pair.contract
    legs := provided.orderBy pair.first
    share := pair.share
    shareAmount := ← fields.value "share" }

/-- What remains of a provided leg after the refund. Only tokens were pulled net of it. -/
def netLeg (tokenPrefix : String) (provided refunded : Asset) : Except ReadError Asset :=
  if provided.addr = refunded.addr then
    if tokenPrefix.toList.isPrefixOf provided.addr.toList then do
      return { addr := provided.addr, amount := ← Amount.sub provided.amount refunded.amount }
    else .ok provided
  else .error .refundOrder

/-- The record of a provision that may be refunded in part. -/
def refundedProvide (tokenPrefix : String) (fields : Fields) (pair : Pair) :
    Except ReadError Record := do
  let provided := (← Asset.ofCoinPair (← fields.value "assets")).orderBy pair.first
  let refunded := (← Asset.ofCoinPair (← fields.value "refund_assets")).orderBy pair.first
  let first ← netLeg tokenPrefix provided.first refunded.first
  let second ← netLeg tokenPrefix provided.second refunded.second
  return {
    kind := .provide
    sender := (fields.get? "sender").getD ""
    contract := pair.contract
    legs := { first, second }
    share := pair.share
    shareAmount := ← fields.value "share"
    refund := some refunded.toList }

def provide (s : Strategy) (fields : Fields) (pair : Pair) : Except ReadError Record :=
  match s with
  | plain | feeDeducting => plainProvide fields pair
  | reconciling tokenPrefix => refundedProvide tokenPrefix fields pair
  | taxedReconciling tokenPrefix =>
    if fields.has "refund_assets" then refundedProvide tokenPrefix fields pair
    else plainProvide fields pair

/-! ## Withdrawals -/

/-- The part of a withdrawal that the first columbus chain paid out. -/
def paidOutPart : Decimal where
  coefficient := 9939285487078243
  exponent := -16

/-- The amount of a withdrawn leg, which leaves the pool. -/
def withdrawnAmount (s : Strategy) (amount : String) : Except ReadError String :=
  match s with
  | feeDeducting => do
    let paid ← Amount.write (paidOutPart.scale (← Amount.read amount))
    Amount.negate paid
  | _ => Amount.negate amount

/-- The withdrawn legs in the order of the pair. -/
def withdrawnLegs (s : Strategy) (text : String) (pair : Pair) : Except ReadError Legs := do
  let legs ← Asset.ofCoinPair text
  let first ← s.withdrawnAmount legs.first.amount
  let second ← s.withdrawnAmount legs.second.amount
  return Legs.orderBy pair.first {
    first := { addr := legs.first.addr, amount := first },
    second := { addr := legs.second.addr, amount := second } }

def withdraw (s : Strategy) (fields : Fields) (pair : Pair) : Except ReadError Record := do
  return {
    kind := .withdraw
    sender := (fields.get? "sender").getD ""
    contract := pair.contract
    legs := ← s.withdrawnLegs (← fields.value "refund_assets") pair
    share := pair.share
    shareAmount := ← fields.value "withdrawn_share" }

/-! ## All actions -/

/-- The actions with a meaning, in alphabetical order. -/
def actions : List String := [Action.provide, Action.swap, Action.withdraw]

def handle (s : Strategy) (action : String) (fields : Fields) (pair : Pair) :
    Except ReadError Record :=
  if action = Action.swap then s.swap fields pair
  else if action = Action.provide then s.provide fields pair
  else if action = Action.withdraw then s.withdraw fields pair
  else .error (.unhandledAction action s.name actions)

end Strategy

end PoolLedger
