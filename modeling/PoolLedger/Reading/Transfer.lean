import PoolLedger.Reading.PairAction

/-!
# Reading transfers

A transfer matters to a pool when exactly one of its sides is a registered pair (`Registry.party`).
What moves out counts negative. A token that the pair does not hold is noted under its address, and
the pair is *flagged*: flags are a state that outlives a failure.
-/

namespace PoolLedger

/-- The contracts of the flagged pairs, in the order in which they were flagged. -/
abbrev Flags := List String

def Flags.add (flags : Flags) (contract : String) : Flags :=
  if flags.contains contract then flags else flags ++ [contract]

/-- Readings that flag pairs and may fail. -/
abbrev Flagging := ExceptT ReadError (StateM Flags)

def flag (contract : String) : Flagging Unit :=
  modify fun flags => Flags.add flags contract

/-! ## Whom a transfer concerns -/

/-- The pair that takes part in a transfer, and whether it is the sender. -/
structure Party where
  pair : Pair
  outflow : Bool
deriving DecidableEq, Repr

/-- The pair on one side of a transfer, if there is one. -/
def Registry.party (registry : Registry) (sender recipient : String) :
    Except ReadError (Option Party) :=
  match registry.get? sender, registry.get? recipient with
  | some _, some _ => .error (.ambiguousTransfer sender recipient)
  | some pair, none => .ok (some { pair, outflow := true })
  | none, some pair => .ok (some { pair, outflow := false })
  | none, none => .ok none

namespace Party

/-- The amount that a leg adds to the pool. -/
def signed (p : Party) (amount : String) : Except ReadError String :=
  if p.outflow then Amount.negate amount else .ok amount

/-- Puts legs into their places in a record, a later one over an earlier one. -/
def place (p : Party) : List Asset → Record → Flagging Record
  | [], r => pure r
  | leg :: rest, r => do
    let amount ← p.signed leg.amount
    if leg.addr = p.pair.first then
      place p rest { r with legs := { r.legs with first := { addr := leg.addr, amount } } }
    else if leg.addr = p.pair.second then
      place p rest { r with legs := { r.legs with second := { addr := leg.addr, amount } } }
    else do
      flag p.pair.contract
      place p rest { r with notes := r.notes.put leg.addr (.str amount) }

/-- The record of a transfer that moves the given legs. -/
def record (p : Party) (sender recipient : String) (legs : List Asset) : Flagging Record :=
  p.place legs {
    kind := .transfer
    sender
    contract := p.pair.contract
    legs := p.pair.emptyLegs
    notes := [("recipient", .str recipient)] }

end Party

/-! ## The two kinds of transfer -/

/-- The record of a bank transfer, if it matters. -/
def readBankTransfer (added : Int) (registry : Registry) (attrs : List Attribute) :
    Flagging (Option Record) := do
  let action := RecordKind.transfer.name
  checkShape .bankTransfer action transferKeys.length added attrs
  let fields ← Fields.read .bankTransfer action attrs
  let sender ← fields.value "sender"
  let recipient ← fields.value "recipient"
  match ← registry.party sender recipient with
  | none => return none
  | some party =>
    let coins ← Asset.ofCoins (← fields.value "amount")
    return some (← party.record sender recipient coins)

/-- What is in force for the tokens of a deployment. -/
structure TokenReader where
  layout : Layout
  /-- The number of attributes that the chain adds to every event. -/
  added : Int := 0
deriving DecidableEq, Repr

/-- The fields of a token transfer in good shape. -/
def TokenReader.fields (reader : TokenReader) (attrs : List Attribute) :
    Except ReadError Fields := do
  let attrs := reader.layout.prepare attrs
  let fields ← Fields.read .tokenTransfer RecordKind.transfer.name attrs
  let action := (fields.get? actionKey).getD ""
  match reader.layout.required? action with
  | none => throw (.unknownTransfer action reader.layout.actions)
  | some required =>
    let expected ← reader.layout.expectedLength action fields.keys
    checkShape .tokenTransfer action expected reader.added attrs
    checkKeys action required fields
    return fields

/-- The record of a token transfer, if it matters. The token is the contract that logs it. -/
def TokenReader.read (reader : TokenReader) (registry : Registry) (attrs : List Attribute) :
    Flagging (Option Record) := do
  let fields ← reader.fields attrs
  let sender ← fields.value "from"
  let recipient ← fields.value "to"
  match ← registry.party sender recipient with
  | none => return none
  | some party =>
    let token ← fields.value reader.layout.contractKey
    let amount ← fields.value "amount"
    return some (← party.record sender recipient [{ addr := token, amount }])

end PoolLedger
