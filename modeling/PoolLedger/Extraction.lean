import PoolLedger.Event.Scan
import PoolLedger.Profile
import PoolLedger.Reading.Creation

/-!
# Extracting records from transactions

`Profile.extract` turns a transaction into records: first the pairs it creates, which are registered
so that the rest of the transaction can refer to them, then the actions of pairs, then token
transfers and bank transfers that no action already accounts for (`withoutDuplicates`). The registry
and the flags outlive a failure.
-/

namespace PoolLedger

namespace Profile

/-! ## The five kinds of record in some entries -/

/-- The creations in some entries of a transaction. -/
def creations (p : Profile) (tx : RawTx) (entries : List Entry) : Except ReadError (List Record) :=
  (p.creationRule.findIn entries).mapM fun m => return (← readCreation 0 m).stamped tx

/-- The actions of pairs in some entries of a transaction. -/
def pairActions (p : Profile) (height : Int) (registry : Registry) (tx : RawTx)
    (entries : List Entry) : Except ReadError (List Record) :=
  ((p.pairRule registry.contracts).findIn entries).mapM fun m =>
    return (← (p.pairReader height).read registry m).stamped tx

/-- The first provisions in some entries of a transaction, if the deployment has them. -/
def firstProvides? (p : Profile) (registry : Registry) (tx : RawTx) (entries : List Entry) :
    Option (Except ReadError (List Record)) :=
  if p.deployment.hasFirstProvide then
    some (((Rule.firstProvide registry.contracts).findIn entries).mapM fun m =>
      return (← readFirstProvide 0 m).stamped tx)
  else none

/-- The token transfers in some entries of a transaction that matter. -/
def tokenTransfers (p : Profile) (height : Int) (registry : Registry) (tx : RawTx)
    (entries : List Entry) : Flagging (List Record) := do
  let found ← (p.tokenRule.findIn entries).mapM ((p.tokenReader height).read registry)
  return (found.filterMap id).map (·.stamped tx)

/-- The bank transfers in some entries of a transaction that matter. -/
def bankTransfers (p : Profile) (registry : Registry) (tx : RawTx) (entries : List Entry) :
    Flagging (List Record) := do
  let found ← (p.bankRule.findIn entries).mapM (readBankTransfer 0 registry)
  return (found.filterMap id).map (·.stamped tx)

end Profile

/-! ## Duplicates -/

/-- Whether a record of a pair action already accounts for a transfer: they belong to one
transaction and one contract, and agree in the first or in the second leg. -/
def Record.accountsFor (action transfer : Record) : Bool :=
  action.hash = transfer.hash
    && (action.contract = transfer.contract || action.contract = transfer.sender)
    && (action.legs.first = transfer.legs.first || action.legs.second = transfer.legs.second)

/-- The transfers that no action accounts for. -/
def withoutDuplicates (actions transfers : List Record) : List Record :=
  transfers.filter fun t => !actions.any (·.accountsFor t)

/-! ## Whole transactions -/

/-- What is found in the entries of a transaction after its creations. -/
structure Findings where
  actions : List Record := []
  tokenTransfers : List Record := []
  bankTransfers : List Record := []

/-- The findings of some entries followed by those of others. -/
def Findings.append (a b : Findings) : Findings where
  actions := a.actions ++ b.actions
  tokenTransfers := a.tokenTransfers ++ b.tokenTransfers
  bankTransfers := a.bankTransfers ++ b.bankTransfers

/-- The records of the findings: actions are sent by the sender of the transaction, and transfers
that they account for are left out. -/
def Findings.records (f : Findings) (sender : String) : List Record :=
  let actions := f.actions.map fun r => { r with sender }
  actions ++ withoutDuplicates actions f.tokenTransfers ++ withoutDuplicates actions f.bankTransfers

namespace Profile

/-- The first provisions in one entry in which the given actions are found. Share tokens minted to a
pair are looked for only beside a provision. -/
def minted (p : Profile) (registry : Registry) (tx : RawTx) (e : Entry) (actions : List Record) :
    Except ReadError (List Record) :=
  match p.firstProvides? registry tx [e] with
  | some found => if actions.any (·.kind = .provide) then found else pure []
  | none => pure []

/-- What is found in one entry. -/
def findings (p : Profile) (height : Int) (registry : Registry) (tx : RawTx) (e : Entry) :
    Flagging Findings := do
  let actions ← p.pairActions height registry tx [e]
  let minted ← p.minted registry tx e actions
  let tokenTransfers ← p.tokenTransfers height registry tx [e]
  let bankTransfers ← p.bankTransfers registry tx [p.prepare e]
  return { actions := actions ++ minted, tokenTransfers, bankTransfers }

/-- What is found in several entries, one after another. -/
def allFindings (p : Profile) (height : Int) (registry : Registry) (tx : RawTx) :
    List Entry → Flagging Findings
  | [] => pure {}
  | e :: rest => do
    let here ← p.findings height registry tx e
    return here.append (← p.allFindings height registry tx rest)

end Profile

/-- What extraction carries from one transaction to the next. -/
structure Knowledge where
  registry : Registry := {}
  flags : Flags := []
deriving DecidableEq, Repr

def Registry.afterCreations (registry : Registry) (created : List Record) : Registry :=
  registry.insertAll (created.map (·.createdPair))

/-- The records of a transaction, and what is known afterwards. -/
def Profile.extract (p : Profile) (height : Int) (tx : RawTx) (known : Knowledge) :
    Except ReadError (List Record) × Knowledge :=
  match p.creations tx tx.entries with
  | .error e => (.error e, known)
  | .ok created =>
    let registry := known.registry.afterCreations created
    let (outcome, flags) := p.allFindings height registry tx tx.entries known.flags
    let created := created.map fun r => { r with sender := tx.sender }
    (outcome.map fun found => created ++ found.records tx.sender, { registry, flags })

end PoolLedger
