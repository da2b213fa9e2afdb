import PoolLedger.Sync.Validation

/-!
# Running a follower

`Follower.run` brings the store up to the height of the source. Each block is written at once
(`Follower.processBlock`), so that after a failure the next run goes on where the last one stopped.
A transaction that cannot be read is recorded and stops the run.
-/

namespace PoolLedger

/-! ## Reading a block -/

/-- A transaction that could not be read. -/
structure FailedTx where
  hash : String
  cause : ReadError
deriving DecidableEq, Repr

/-- The records of some transactions, one after another, and what is known afterwards. -/
def Profile.extractAll (p : Profile) (height : Int) :
    List RawTx → Knowledge → Except FailedTx (List Record) × Knowledge
  | [], known => (.ok [], known)
  | tx :: rest, known =>
    match p.extract height tx known with
    | (.error cause, known) => (.error { hash := tx.hash, cause }, known)
    | (.ok records, known) =>
      let (more, known) := p.extractAll height rest known
      (more.map (records ++ ·), known)

/-- The pairs that records create. -/
def createdPairs (records : List Record) : List Pair :=
  (records.filter (·.kind == .creation)).map (·.createdPair)

namespace Follower

variable {σ : Type}

def chain (f : Follower σ) : String := f.profile.chainId

/-- The records of a block, and the registry afterwards. A transaction that cannot be read is
recorded. -/
def readBlock (f : Follower σ) (height : Int) (txs : List RawTx) :
    Syncing σ (List Record × Registry) := do
  let w ← get
  let (outcome, known) :=
    f.profile.extractAll height txs { registry := w.store.registry f.chain, flags := w.flags }
  set { w with flags := known.flags }
  match outcome with
  | .ok records => return (records, known.registry)
  | .error failed =>
    Syncing.commit fun s => s.addFailure {
      chain := f.chain, height, hash := failed.hash, category := failed.cause.category.name,
      message := some failed.cause.message }
    throw (.reading failed.cause)

/-! ## Blocks -/

/-- Validates the pools at a height that has been written, if it is due. -/
def validateBlock (f : Follower σ) (height : Int) (registry : Registry) (pools : List Pool) :
    Syncing σ Unit := do
  if ← due f.policy.validationInterval height then
    let pools ←
      if pools.isEmpty then Syncing.ask (f.source.pools height registry.pairs) else pure pools
    f.validate 0 height pools

/-- The pools that are to be stored with a block, if any are. -/
def snapshot (f : Follower σ) (height : Int) (registry : Registry) : Syncing σ (List Pool) := do
  if ← due f.policy.snapshotInterval height then
    Syncing.ask (f.source.pools height registry.pairs)
  else return []

/-- Reads a block and writes it, with the pools if they are to be stored. What is known afterwards
are the registry and these pools. -/
def writeBlock (f : Follower σ) (height : Int) : Syncing σ (Registry × List Pool) := do
  let txs ← Syncing.ask (f.source.transactions height)
  let (records, registry) ← f.readBlock height txs
  let pools ← f.snapshot height registry
  Syncing.commit fun s => s.insert f.chain height records pools (createdPairs records)
  return (registry, pools)

/-- Reads a block, writes it, and validates the pools if that is due. -/
def processBlock (f : Follower σ) (height : Int) : Syncing σ Unit := do
  let (registry, pools) ← f.writeBlock height
  f.validateBlock height registry pools

/-- Processes `count` blocks from a height on. -/
def processBlocks (f : Follower σ) : Nat → Int → Syncing σ Unit
  | 0, _ => pure ()
  | count + 1, height => do
    f.processBlock height
    f.processBlocks count (height + 1)

/-! ## Runs -/

/-- Takes note of the height that the source reports, and fails if it is the same too often in a
row. -/
def noteHeight (f : Follower σ) (height : Int) : Syncing σ Unit := do
  let w ← get
  if height = w.lastHeight then
    let count := w.sameCount + 1
    set { w with sameCount := count }
    if f.policy.tolerance < count then throw (.stalled height count)
  else set { w with sameCount := 0, lastHeight := height }

/-- Fails if the source is behind the store, or stalled. -/
def acceptHeight (f : Follower σ) (synced remote : Int) : Syncing σ Unit := do
  if remote < synced then throw (.behind remote synced)
  f.noteHeight remote

/-- The height up to which the chain has been followed; a new chain is entered into the store. -/
def openChain (f : Follower σ) : Syncing σ Int := fun w =>
  let (height, store) := w.store.syncedHeight f.chain
  (.ok height, { w with store })

/-- Validates the pools at the height where the last run stopped, if that is due. -/
def validateStart (f : Follower σ) (height : Int) : Syncing σ Unit := do
  if ← due f.policy.validationInterval height then
    let pairs := ((← get).store.registry f.chain).pairs
    let pools ← Syncing.ask (f.source.pools height pairs)
    f.validate 0 height pools

/-- Brings the store up to the height of the source. -/
def run (f : Follower σ) : Syncing σ Unit := do
  let synced ← f.openChain
  let remote ← Syncing.ask f.source.height
  f.acceptHeight synced remote
  f.validateStart synced
  f.processBlocks (remote - synced).toNat (synced + 1)

end Follower

end PoolLedger
