import PoolLedger.Error
import PoolLedger.Pair
import PoolLedger.Store.Row

/-!
# The store

A store holds six tables, each a list of rows in the order of insertion. Every operation is about
one chain and a pure function of the store. A block is written at once by `Store.insert`, which also
moves the height of the chain on by one.
-/

namespace PoolLedger

/-- Why the store does not do what is asked. -/
inductive StoreError where
  /-- The chain has not been followed up to the height before. -/
  | noPredecessor (chain : String) (height : Int)
  /-- A contract would occur twice on a chain. -/
  | duplicate
  /-- An integer that is asked for does not fit into a column. -/
  | outOfRange
  /-- An integer that is to be stored does not fit into a column. -/
  | unstorable
  /-- A write failed, and what was done before it has not been rolled back yet. -/
  | broken
  /-- A pool does not have two assets. -/
  | missingAsset
  /-- An amount in a row cannot be read, or a sum not written. -/
  | amount (cause : ReadError)
deriving DecidableEq, Repr

def StoreError.message : StoreError → String
  | noPredecessor chain height => s!"synced height({height - 1}) not found for chain({chain})"
  | amount cause => cause.message
  | _ => ""

/-- Whether a failure undoes all that was done since the last commit. -/
def StoreError.undoes : StoreError → Bool
  | duplicate | unstorable => true
  | _ => false

/-- The tables. -/
structure Store where
  pairs : List PairRow := []
  records : List RecordRow := []
  pools : List PoolRow := []
  progress : List ProgressRow := []
  exempt : List ExemptRow := []
  failures : List FailureRow := []
deriving DecidableEq, Repr

namespace Store

/-- The greatest integer that a column of 64 bits holds. -/
def maxInteger : Int := 9223372036854775807

/-- Whether an integer fits into a column of 64 bits. -/
def fits (n : Int) : Bool :=
  -maxInteger - 1 ≤ n && n ≤ maxInteger

/-! ## Progress -/

/-- The height up to which a chain has been followed, if there is a row for it. -/
def height? (s : Store) (chain : String) : Option Int :=
  (s.progress.find? (·.chain == chain)).map (·.height)

/-- The height up to which a chain has been followed, and the store with a row for it: a
chain starts at zero. -/
def syncedHeight (s : Store) (chain : String) : Int × Store :=
  match s.height? chain with
  | some h => (h, s)
  | none => (0, { s with progress := s.progress ++ [{ chain, height := 0 }] })

/-! ## Pairs -/

/-- The pairs of a chain in the order in which they were stored. -/
def registry (s : Store) (chain : String) : Registry :=
  .ofList ((s.pairs.filter (·.chain == chain)).map (·.toPair))

/-- Adds rows of pairs, unless a contract would occur twice on a chain. -/
def addPairs : List PairRow → List PairRow → Except StoreError (List PairRow)
  | rows, [] => .ok rows
  | rows, r :: more =>
    if rows.any fun q => q.chain == r.chain && q.contract == r.contract then .error .duplicate
    else addPairs (rows ++ [r]) more

/-! ## Blocks -/

def poolRows (chain : String) (height : Int) (pools : List Pool) :
    Except StoreError (List PoolRow) :=
  pools.mapM fun p =>
    match PoolRow.ofPool? chain height p with
    | some r => .ok r
    | none => .error .missingAsset

/-- Moves the height of a chain on from `height - 1`. -/
def advance (chain : String) (height : Int) (rows : List ProgressRow) : List ProgressRow :=
  rows.map fun r => if r.chain = chain ∧ r.height = height - 1 then { r with height } else r

/-- Writes a block: the records, the pools and the new pairs of a height, which must be the one
after the height up to which the chain has been followed. -/
def insert (s : Store) (chain : String) (height : Int) (records : List Record)
    (pools : List Pool) (pairs : List Pair) : Except StoreError Store := do
  if !fits (height - 1) then throw .outOfRange
  if !s.progress.any fun r => r.chain == chain && r.height == height - 1 then
    throw (.noPredecessor chain height)
  let poolRows ← poolRows chain height pools
  if !fits height then throw .unstorable
  let pairRows ← addPairs s.pairs (pairs.map (.ofPair chain))
  return {
    s with
    pairs := pairRows
    records := s.records ++ records.map (.ofRecord chain height)
    pools := s.pools ++ poolRows
    progress := advance chain height s.progress }

/-! ## Exemptions -/

/-- The contracts of a chain that are exempt from validation. -/
def exemptions (s : Store) (chain : String) : List String :=
  (s.exempt.filter (·.chain == chain)).map (·.contract)

/-- Exempts a pair from validation; a pair is exempted once. -/
def addExemption (s : Store) (chain contract : String) : Except StoreError Store :=
  if (s.exemptions chain).contains contract then .error .duplicate
  else .ok { s with exempt := s.exempt ++ [{ chain, contract }] }

/-! ## Failures -/

/-- Records a transaction that could not be read. -/
def addFailure (s : Store) (r : FailureRow) : Except StoreError Store :=
  if fits r.height then .ok { s with failures := s.failures ++ [r] } else .error .unstorable

/-- The first `limit` items; a negative limit is none. -/
def limited (limit : Int) (l : List α) : List α :=
  if limit < 0 then l else l.take limit.toNat

/-- The latest failures of a chain, newest first; all, or only those that are resolved or not. -/
def listFailures (s : Store) (chain : String) (resolved : Option Bool) (limit : Int) :
    Except StoreError (List FailureRow) :=
  if fits limit then
    .ok (limited limit ((s.failures.filter fun r =>
      r.chain == chain && resolved.all (· == r.resolved)).reverse))
  else .error .outOfRange

/-- How many failures of each category a chain has that are not resolved. -/
def failureCounts (s : Store) (chain : String) : List (String × Nat) :=
  let unresolved := s.failures.filter fun r => r.chain == chain && !r.resolved
  (unresolved.map (·.category)).eraseDups.map fun c => (c, unresolved.countP (·.category == c))

end Store

end PoolLedger
