import PoolLedger.Error

/-!
# Amounts

An amount is a text: a signed decimal integer in base units, where the empty text counts as zero.
Arithmetic is exact and goes through `Amount.read` and `Amount.write`.
-/

namespace PoolLedger.Amount

/-- The integer that an amount denotes. -/
def read (text : String) : Except ReadError Int :=
  if text = "" then .ok 0
  else
    let (negative, digits) := Numeral.splitSign text.toList
    match digits.mapM Numeral.digit? with
    | none | some [] => .error (.malformedAmount text)
    | some ds => (Numeral.read negative ds).mapError .numeral

def write (n : Int) : Except ReadError String :=
  (Numeral.write n).mapError .numeral

/-- The amount with the other sign. -/
def negate (text : String) : Except ReadError String := do
  write (-(← read text))

def add (a b : String) : Except ReadError String := do
  let m ← read a
  let n ← read b
  write (m + n)

def sub (a b : String) : Except ReadError String := do
  let m ← read a
  let n ← read b
  write (m - n)

end PoolLedger.Amount
