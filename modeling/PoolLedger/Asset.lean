import PoolLedger.Amount
import PoolLedger.Text.Blank
import PoolLedger.Text.Digit

/-!
# Assets and coin lists

An asset is an amount of one token or denomination. Coins are written as the amount followed by the
denomination, `1000uluna`, and lists of them are separated by commas. The amount is the longest run
of decimal digits at the front, of any script, and is kept as written.
-/

namespace PoolLedger

/-- An amount of a token or denomination; the empty amount means that none was moved. -/
@[ext]
structure Asset where
  addr : String := ""
  amount : String := ""
deriving DecidableEq, Repr, Inhabited

/-- The two sides of a pool. -/
@[ext]
structure Legs where
  first : Asset := {}
  second : Asset := {}
deriving DecidableEq, Repr, Inhabited

def Legs.toList (l : Legs) : List Asset := [l.first, l.second]

namespace Asset

/-- The asset that one coin text denotes. -/
def ofCoin (text : List Char) : Except ReadError Asset :=
  let coin := Text.strip text
  let amount := coin.takeWhile Text.isDigit
  let addr := coin.dropWhile Text.isDigit
  if amount.isEmpty || addr.isEmpty then .error (.malformedAsset (String.ofList text))
  else .ok { addr := String.ofList addr, amount := String.ofList amount }

def ofCoins (text : String) : Except ReadError (List Asset) :=
  (text.toList.splitOn ',').mapM ofCoin

/-- The assets of a list of exactly two coins. -/
def ofCoinPair (text : String) : Except ReadError Legs := do
  match (text.toList.splitOn ',').map Text.strip with
  | [a, b] => return { first := ← ofCoin a, second := ← ofCoin b }
  | _ => throw (.malformedAssets text)

end Asset

/-- A list of assets in the order of a pair whose first asset is `first`: the first two change
places unless the list starts with that asset. -/
def orderBy (first : String) : List Asset → List Asset
  | a :: b :: rest => if a.addr = first then a :: b :: rest else [b, a]
  | l => l

/-- The legs in the order of a pair whose first asset is `first`. -/
def Legs.orderBy (first : String) (l : Legs) : Legs :=
  if l.first.addr = first then l else { first := l.second, second := l.first }

end PoolLedger
