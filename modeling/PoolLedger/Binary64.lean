/-!
# Binary floating point numbers in decimal

A number of the 64-bit binary format is held as the shortest decimal that reads back as it
(`Binary64.ofDecimal`), so equal numbers have equal representations. All steps are exact: a decimal
is rounded to the nearest `m · 2 ^ q` with `m < 2 ^ 53`, a tie to the even `m`, and the shortest
decimal is searched among the two neighbours of that number on each decimal grid.
-/

namespace PoolLedger

/-- A number of the 64-bit binary format. -/
inductive Binary64 where
  /-- The number `± coefficient · 10 ^ exponent`, in its shortest form. -/
  | finite (negative : Bool) (coefficient : Nat) (exponent : Int)
  | infinite (negative : Bool)
  /-- No number. -/
  | undefined
deriving DecidableEq, Repr

namespace Binary64

/-- The quotient rounded to the nearest natural number, a tie to the even one. -/
def roundDiv (n d : Nat) : Nat :=
  let q := n / d
  let r := n % d
  if 2 * r < d || (2 * r = d && q % 2 = 0) then q else q + 1

/-- The numerator and denominator of `n / d · b ^ e`. -/
def scaled (n d b : Nat) (e : Int) : Nat × Nat :=
  if 0 ≤ e then (n * Nat.pow b e.toNat, d) else (n, d * Nat.pow b (-e).toNat)

/-- The least `m` of a number with all 53 binary digits. -/
def leastMantissa : Nat := 4503599627370496

def minExponent : Int := -1074

def maxExponent : Int := 971

/-- The `m` and `q` of the number `m · 2 ^ q` nearest to the positive quotient `n / d`. -/
def nearest (n d : Nat) : Nat × Int :=
  let guess : Int := (n.log2 : Int) - d.log2 - 52
  let (a, b) := scaled n d 2 (-guess)
  let q := max minExponent (if a < b * leastMantissa then guess - 1 else guess)
  let (a, b) := scaled n d 2 (-q)
  let m := roundDiv a b
  if m = 2 * leastMantissa then (leastMantissa, q + 1) else (m, q)

/-- Whether `c · 10 ^ e` reads back as `m · 2 ^ q`. All sides are multiplied by four, so that the
halfway points to the neighbours are integers. -/
def readsBack (m : Nat) (q : Int) (c : Nat) (e : Int) : Bool :=
  let below := if m = leastMantissa && minExponent < q then 4 * m - 1 else 4 * m - 2
  let (n, d) := scaled (4 * c) 1 10 e
  let (n, d) := scaled n d 2 (-q)
  if m % 2 = 0 then below * d ≤ n && n ≤ (4 * m + 2) * d
  else below * d < n && n < (4 * m + 2) * d

def width (n : Nat) : Nat := (Nat.toDigits 10 n).length

/-- The decimal with at most `k` digits that reads back as `m · 2 ^ q` and is nearest to it. -/
def withDigits? (m : Nat) (q : Int) (k : Nat) : Option (Nat × Int) :=
  let (n, d) := scaled m 1 2 q
  let place : Int := (width n : Int) - width d
  let (a, b) := scaled n d 10 (-place)
  let e := (if a < b then place else place + 1) - k
  let (a, b) := scaled n d 10 (-e)
  let low := a / b
  let upper := 2 * (a % b) > b || (2 * (a % b) = b && low % 2 = 1)
  let order := if upper then [low + 1, low] else [low, low + 1]
  (order.find? fun c => readsBack m q c e).map (·, e)

/-- A decimal without zeros at its end; the fuel bounds their number. -/
def dropZeros : Nat → Nat × Int → Nat × Int
  | 0, d => d
  | fuel + 1, (c, e) => if c ≠ 0 && c % 10 = 0 then dropZeros fuel (c / 10, e + 1) else (c, e)

/-- The shortest decimal that reads back as `m · 2 ^ q`. -/
def shortest (m : Nat) (q : Int) : Nat × Int :=
  match (List.range 17).findSome? fun k => withDigits? m q (k + 1) with
  | some d => dropZeros 20 d
  | none => (m, 0)

/-- The number nearest to `± coefficient · 10 ^ exponent`. -/
def ofDecimal (negative : Bool) (coefficient : Nat) (exponent : Int) : Binary64 :=
  let top := exponent + width coefficient
  if coefficient = 0 || top < -330 then .finite negative 0 0
  else if 320 < top then .infinite negative
  else
    let (n, d) := scaled coefficient 1 10 exponent
    let (m, q) := nearest n d
    if m = 0 then .finite negative 0 0
    else if maxExponent < q then .infinite negative
    else
      let (c, e) := shortest m q
      .finite negative c e

/-- The text of a number: positional from `1e-4` up to below `1e16`, scientific outside. -/
def text : Binary64 → String
  | undefined => "nan"
  | infinite negative => if negative then "-inf" else "inf"
  | finite negative c e =>
    let digits := Nat.toDigits 10 c
    let point : Int := digits.length + (if c = 0 then 0 else e)
    let unsigned : List Char :=
      if -4 < point && point ≤ 16 then
        if point ≤ 0 then '0' :: '.' :: List.replicate (-point).toNat '0' ++ digits
        else
          let whole := (digits ++ List.replicate e.toNat '0').take point.toNat
          let fraction := digits.drop point.toNat
          whole ++ '.' :: (if fraction.isEmpty then ['0'] else fraction)
      else
        let exponent := point - 1
        let mantissa := match digits with
          | [d] => [d]
          | d :: rest => d :: '.' :: rest
          | [] => []
        let power := Nat.toDigits 10 exponent.natAbs
        mantissa ++ 'e' :: (if exponent < 0 then '-' else '+')
          :: (if power.length < 2 then '0' :: power else power)
    String.ofList (if negative then '-' :: unsigned else unsigned)

/-- The `m` and `q` of the number `m · 2 ^ q` whose shortest form is `c · 10 ^ e`. -/
def binary (c : Nat) (e : Int) : Nat × Int :=
  if c = 0 then (0, 0)
  else
    let (n, d) := scaled c 1 10 e
    nearest n d

/-- The value of a finite number as a quotient. It is that of `m · 2 ^ q`, of which the shortest
form may be an approximation. -/
def quotient? : Binary64 → Option (Int × Nat)
  | finite negative c e =>
    let (m, q) := binary c e
    let (n, d) := scaled m 1 2 q
    some (if negative then -(n : Int) else n, d)
  | _ => none

/-- The number cut toward zero, if it is finite. -/
def truncate? (x : Binary64) : Option Int :=
  x.quotient?.map fun (n, d) => n.tdiv d

/-- Whether the number is zero, of either sign. -/
def isZero : Binary64 → Bool
  | finite _ c _ => c = 0
  | _ => false

end Binary64

end PoolLedger
