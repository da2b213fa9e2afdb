import PoolLedger.Sorting
import PoolLedger.Sync.Basic

/-!
# Validating pools

The pools that the stored records imply are compared with those of a node. A pair that is flagged
may differ and is exempted from then on; any other difference is a failure.
-/

namespace PoolLedger

/-! ## Comparing two pools -/

/-- The first asset in which a pool differs from the expected one. -/
def assetMismatch? (contract : String) :
    List Asset → List Asset → Except SyncError (Option PoolMismatch)
  | _, [] => .ok none
  | actual, e :: expected => do
    let n ← (Amount.read e.amount).mapError .reading
    match actual with
    | [] => throw .missingAsset
    | a :: actual =>
      let m ← (Amount.read a.amount).mapError .reading
      if n = m then assetMismatch? contract actual expected
      else return some (.amount contract e.addr a.amount e.amount)

def poolMismatch? (actual expected : Pool) : Except SyncError (Option PoolMismatch) := do
  match ← assetMismatch? actual.contract actual.assets expected.assets with
  | some m => return some m
  | none =>
    let n ← (Amount.read expected.supply).mapError .reading
    let m ← (Amount.read actual.supply).mapError .reading
    if n = m then return none
    else return some (.supply actual.contract actual.supply expected.supply)

/-! ## Comparing all pools -/

/-- Puts a pool in the place of the one of its contract, or at the end. -/
def putPool (p : Pool) : List Pool → List Pool
  | [] => [p]
  | q :: rest => if q.contract = p.contract then p :: rest else q :: putPool p rest

/-- The expected pools that are not exempt, one for each contract. -/
def expectedPools (exempt : List String) (expected : List Pool) : List Pool :=
  (expected.filter fun p => !exempt.contains p.contract).foldl (fun l p => putPool p l) []

/-- What comparing pools comes to. -/
structure Comparison where
  /-- The flagged pairs that differ. -/
  differing : List String := []
  /-- The expected pools that were not found. -/
  left : List Pool := []
deriving DecidableEq, Repr

/-- Compares pools that are not exempt with the expected ones. -/
def comparePools (flags : Flags) :
    List Pool → List Pool → Except SyncError Comparison
  | [], expected => .ok { left := expected }
  | a :: actual, expected =>
    match expected.find? (·.contract == a.contract) with
    | none => .error (.mismatch (.unexpected a.contract))
    | some e => do
      let expected := expected.filter (·.contract != a.contract)
      match ← poolMismatch? a e with
      | none => comparePools flags actual expected
      | some m =>
        if flags.contains a.contract then
          let rest ← comparePools flags actual expected
          return { rest with differing := a.contract :: rest.differing }
        else throw (.mismatch m)

def exemptAll (chain : String) (contracts : List String) (s : Store) :
    Except StoreError Store :=
  contracts.foldlM (fun s c => s.addExemption chain c) s

/-- Compares the pools of a range of heights with those of a node. Nothing expected is nothing to
compare; expected pools that are not found are reported after the exemptions are kept. -/
def Follower.validate {σ : Type} (f : Follower σ) (first last : Int) (expected : List Pool) :
    Syncing σ Unit := do
  if expected.isEmpty then return
  let chain := f.profile.chainId
  let actual ← Syncing.query fun s => s.impliedPools chain first last
  let exempt := (← get).store.exemptions chain
  let compared ← comparePools (← get).flags
    (actual.filter fun p => !exempt.contains p.contract) (expectedPools exempt expected)
  Syncing.commit (exemptAll chain compared.differing)
  if !compared.left.isEmpty then
    throw (.mismatch (.missing (sortBy (· ≤ ·) (compared.left.map (·.contract)))))

end PoolLedger
