import PoolLedger.Extraction
import PoolLedger.Source.Basic
import PoolLedger.Store.Flow

/-!
# Following a chain

A follower brings the store up to the height of a source, block by block. What it knows
beyond the store is lost when it is started anew: the flagged pairs and the heights that
the source reported last.
-/

namespace PoolLedger

/-- How the pools of a store and of a node differ. -/
inductive PoolMismatch where
  /-- The node does not have a pool that the store has. -/
  | unexpected (contract : String)
  /-- The amounts of an asset differ. -/
  | amount (contract asset actual expected : String)
  /-- The share supplies differ. -/
  | supply (contract actual expected : String)
  /-- The store does not have some pools that the node has. -/
  | missing (contracts : List String)
deriving DecidableEq, Repr

def PoolMismatch.message : PoolMismatch → String
  | unexpected contract => s!"unexpected pool({contract}) found"
  | amount contract asset actual expected =>
    s!"pool({contract}) asset({asset}) amount mismatch: actual({actual}), expected({expected})"
  | supply contract actual expected =>
    s!"pool({contract}) total share mismatch: actual({actual}), expected({expected})"
  | missing contracts => s!"expected pools({Text.quotedList contracts}) not found"

/-- Why following a chain stops. -/
inductive SyncError where
  | source (cause : NodeError)
  | store (cause : StoreError)
  /-- Something in a transaction, or an amount of a pool, cannot be read. -/
  | reading (cause : ReadError)
  /-- The source is behind the store. -/
  | behind (remote synced : Int)
  /-- The source has reported the same height too many times in a row. -/
  | stalled (height count : Int)
  /-- The pools of the store and of the node differ. -/
  | mismatch (cause : PoolMismatch)
  /-- A pool lacks an asset that it is compared in. -/
  | missingAsset
  /-- An interval of zero blocks never passes. -/
  | zeroInterval
deriving DecidableEq, Repr

def SyncError.message : SyncError → Text
  | source cause => cause.message
  | store cause => cause.message
  | reading cause => cause.message
  | behind remote synced =>
    s!"remote height({remote}) is less than local synced height({synced})"
  | stalled height count =>
    s!"remote node height({height}) remains the same for {count} consecutive times"
  | mismatch cause => cause.message
  | missingAsset | zeroInterval => ""

/-- When a follower gives up, keeps snapshots, and validates. -/
structure Policy where
  /-- How many times in a row the source may report the same height again. -/
  tolerance : Int := 3
  /-- Every how many blocks the pools are stored. -/
  snapshotInterval : Int := 100
  /-- Every how many blocks the pools are validated. -/
  validationInterval : Int := 100
deriving DecidableEq, Repr

/-- What a follower works with. -/
structure Follower (σ : Type) where
  profile : Profile
  source : Source σ
  policy : Policy := {}

/-- The state of following a chain: that of the source, the store, and what the follower knows. -/
structure World (σ : Type) where
  source : σ
  store : Store := {}
  flags : Flags := []
  /-- The height that the source reported last. -/
  lastHeight : Int := 0
  /-- How many times in a row it reported that height again. -/
  sameCount : Int := 0

/-- The world after the follower is started anew. -/
def World.restarted {σ : Type} (w : World σ) : World σ :=
  { source := w.source, store := w.store }

/-- Steps of following a chain that may fail. -/
abbrev Syncing (σ : Type) := ExceptT SyncError (StateM (World σ))

namespace Syncing

variable {σ : Type}

def ask (question : Querying σ α) : Syncing σ α := fun w =>
  let (answer, source) := question w.source
  (answer.mapError .source, { w with source })

def query (question : Store → Except StoreError α) : Syncing σ α := fun w =>
  ((question w.store).mapError .store, w)

/-- Changes the store, all or nothing. -/
def commit (operation : Store → Except StoreError Store) : Syncing σ Unit := fun w =>
  match operation w.store with
  | .ok store => (.ok (), { w with store })
  | .error e => (.error (.store e), w)

end Syncing

/-- Whether a height is a multiple of an interval. -/
def due (interval height : Int) : Except SyncError Bool :=
  if interval = 0 then .error .zeroInterval else .ok (height % interval = 0)

end PoolLedger
