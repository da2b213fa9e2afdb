import PoolLedger.Asset

/-!
# Pairs and the registry

A pair is a contract that holds two assets and issues a share token. The registry lists the known
pairs in the order in which their contracts were first seen; a contract occurs once, which is part
of the type. Registering a known contract again replaces its pair in place.
-/

namespace PoolLedger

/-- A pool contract. The order of its assets is fixed when it is created. -/
structure Pair where
  contract : String
  /-- The token that stands for shares of the pool. -/
  share : String := ""
  /-- The address of the first asset. -/
  first : String
  /-- The address of the second asset. -/
  second : String
deriving DecidableEq, Repr, Inhabited

/-- The legs of a pair of which none was moved. -/
def Pair.emptyLegs (p : Pair) : Legs :=
  { first := { addr := p.first }, second := { addr := p.second } }

/-- The known pairs. -/
structure Registry where
  pairs : List Pair := []
  nodup : (pairs.map (·.contract)).Nodup := by simp
deriving DecidableEq, Repr

namespace Registry

instance : Inhabited Registry := ⟨{}⟩

/-- The contracts of the known pairs, in order. -/
def contracts (r : Registry) : List String :=
  r.pairs.map (·.contract)

def get? (r : Registry) (contract : String) : Option Pair :=
  r.pairs.find? (·.contract == contract)

/-- Puts a pair in the place of the one with its contract, or at the end. -/
def put (p : Pair) : List Pair → List Pair
  | [] => [p]
  | q :: rest => if q.contract = p.contract then p :: rest else q :: put p rest

theorem mem_map_contract_put (p : Pair) (c : String) (l : List Pair) :
    c ∈ (put p l).map (·.contract) ↔ c = p.contract ∨ c ∈ l.map (·.contract) := by
  induction l with
  | nil => simp [put]
  | cons q rest ih =>
    by_cases h : q.contract = p.contract
    · simp [put, h]
    · simp only [put, h, if_false, List.map_cons, List.mem_cons, ih]
      grind

theorem nodup_put (p : Pair) {l : List Pair} (h : (l.map (·.contract)).Nodup) :
    ((put p l).map (·.contract)).Nodup := by
  induction l with
  | nil => simp [put]
  | cons q rest ih =>
    simp only [List.map_cons, List.nodup_cons] at h
    by_cases hq : q.contract = p.contract
    · rw [put, if_pos hq, List.map_cons, List.nodup_cons, ← hq]
      exact h
    · simp only [put, hq, if_false, List.map_cons, List.nodup_cons]
      refine ⟨fun hm => ?_, ih h.2⟩
      rcases (mem_map_contract_put p q.contract rest).1 hm with hm | hm
      · exact hq hm
      · exact h.1 hm

def insert (r : Registry) (p : Pair) : Registry where
  pairs := put p r.pairs
  nodup := nodup_put p r.nodup

def insertAll (r : Registry) (ps : List Pair) : Registry :=
  ps.foldl insert r

def ofList (ps : List Pair) : Registry :=
  insertAll {} ps

end Registry

end PoolLedger
