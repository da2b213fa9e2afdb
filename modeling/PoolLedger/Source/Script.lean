import PoolLedger.Source.Basic

/-!
# Scripted sources

A scripted source has its answers laid out by height, and remembers what it was asked.
-/

namespace PoolLedger

/-- A question to a source. -/
inductive Question where
  | height
  | transactions (height : Int)
  | pools (height : Int) (contracts : List String)
deriving DecidableEq, Repr

/-- Answers by height, and the questions that were asked. -/
structure ScriptedSource where
  height : Int := 0
  /-- The transactions of blocks; a block may be missing. -/
  blocks : List (String × Option (List RawTx)) := []
  pools : List (String × List Pool) := []
  questions : List Question := []
deriving DecidableEq, Repr

namespace ScriptedSource

def asked (s : ScriptedSource) (q : Question) : ScriptedSource :=
  { s with questions := s.questions ++ [q] }

/-- The transactions of a block; a height without a block has none. -/
def block (s : ScriptedSource) (height : Int) : Except NodeError (List RawTx) :=
  match s.blocks.lookup (toString height) with
  | none => .ok []
  | some none => .error (.noBlock (toString height))
  | some (some txs) => .ok txs

/-- The pools at a height; without pairs there are none. -/
def poolsAt (s : ScriptedSource) (height : Int) (pairs : List Pair) : List Pool :=
  if pairs.isEmpty then [] else (s.pools.lookup (toString height)).getD []

def source : Source ScriptedSource where
  height := fun s => (.ok s.height, s.asked .height)
  transactions height := fun s => (s.block height, s.asked (.transactions height))
  pools height pairs := fun s =>
    (.ok (s.poolsAt height pairs), s.asked (.pools height (pairs.map (·.contract))))

/-- Gives a key a value, in its place if it is there. -/
def put (key : String) (value : α) : List (String × α) → List (String × α)
  | [] => [(key, value)]
  | (k, v) :: rest => if k = key then (k, value) :: rest else (k, v) :: put key value rest

def merge (s : ScriptedSource) (height : Option Int)
    (blocks : List (String × Option (List RawTx))) (pools : List (String × List Pool)) :
    ScriptedSource :=
  { s with
    height := height.getD s.height
    blocks := blocks.foldl (fun l b => put b.1 b.2 l) s.blocks
    pools := pools.foldl (fun l p => put p.1 p.2 l) s.pools }

end ScriptedSource

end PoolLedger
