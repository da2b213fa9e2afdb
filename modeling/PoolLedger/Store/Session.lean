import PoolLedger.Store.Flow

/-!
# Sessions

A session works on a store without keeping anything until it commits. A write that breaks a
constraint undoes all that was done since the last commit, and the session refuses everything
until it is rolled back. A block that is given up half way leaves rows *pending*: whatever is
done next writes them first.
-/

namespace PoolLedger

/-- Rows that are still to be written. -/
structure Pending where
  pairs : List PairRow := []
  records : List RecordRow := []
deriving DecidableEq, Repr

namespace Pending

/-- The rows of the pairs and the records of a block. -/
def ofBlock (chain : String) (height : Int) (records : List Record)
    (pairs : List Pair) : Pending where
  pairs := pairs.map (.ofPair chain)
  records := records.map (.ofRecord chain height)

def writePairs (p : Pending) (s : Store) : Except StoreError Store := do
  return { s with pairs := ← Store.addPairs s.pairs p.pairs }

def writeRecords (p : Pending) (s : Store) : Except StoreError Store :=
  if p.records.all fun r => Store.fits r.height then
    .ok { s with records := s.records ++ p.records }
  else .error .unstorable

end Pending

/-- A store as last committed and as it is now. -/
structure Session where
  committed : Store := {}
  current : Store := {}
  pending : Pending := {}
  /-- Whether a write has failed since the last commit or rollback. -/
  isBroken : Bool := false
deriving DecidableEq, Repr

/-- What is done in a session. -/
abbrev InSession := ExceptT StoreError (StateM Session)

namespace Session

/-- A session that has not done anything yet. -/
def on (s : Store) : Session := { committed := s, current := s }

/-- Undoes what was done since the last commit. -/
def rollback : InSession Unit :=
  modify fun s => on s.committed

/-- Refuses to go on after a failed write. -/
def checkSound : InSession Unit := do
  if (← get).isBroken then throw .broken

/-- The current store after an operation on it, which takes place between the writing of the pending
pairs and that of the pending records. -/
def after (s : Session) (operation : Store → Except StoreError Store) :
    Except StoreError Store := do
  s.pending.writeRecords (← operation (← s.pending.writePairs s.current))

def write (operation : Store → Except StoreError Store) : InSession Unit := do
  checkSound
  match (← get).after operation with
  | .ok current => modify fun s => { s with current, pending := {} }
  | .error e =>
    if e.undoes then modify fun s => { on s.committed with isBroken := true }
    throw e

def flush : InSession Unit := write .ok

def commit : InSession Unit := do
  flush
  modify fun s => on s.current

def query (question : Store → Except StoreError α) : InSession α := do
  flush
  match question (← get).current with
  | .ok a => return a
  | .error e => throw e

/-- Writes a block. If a pool does not have two assets, the pairs and the records of the
block are left pending. -/
def insert (chain : String) (height : Int) (records : List Record) (pools : List Pool)
    (pairs : List Pair) : InSession Unit := do
  flush
  match (← get).current.insert chain height records pools pairs with
  | .error .missingAsset =>
    modify fun s => { s with pending := .ofBlock chain height records pairs }
    throw .missingAsset
  | outcome => write fun _ => outcome

/-- The height up to which a chain has been followed; a chain starts at zero. -/
def syncedHeight (chain : String) : InSession Int := do
  flush
  let (height, current) := (← get).current.syncedHeight chain
  modify fun s => { s with current }
  return height

end Session

end PoolLedger
