import PoolLedger.Amount
import PoolLedger.Binary64
import PoolLedger.Text.Blank
import PoolLedger.Text.Digit

/-!
# Decimal factors

Amounts are scaled by decimal factors `c · 10 ^ e` and cut toward zero. A product is worked out to
as many digits as the amount and the coefficient have together, and one more
(`Decimal.workingPrecision`); further digits would be rounded away before the product is cut
(`Decimal.scale`). `scaleAmount` adds the cases in which a factor is no finite number or the
product is out of range.
-/

namespace PoolLedger

/-- The number `coefficient · 10 ^ exponent`. -/
structure Decimal where
  coefficient : Int
  exponent : Int
deriving DecidableEq, Repr

namespace Decimal

/-- The number of digits of the coefficient. -/
def size (d : Decimal) : Nat :=
  Numeral.size d.coefficient.natAbs

/-- The nearest number whose coefficient has at most `precision` digits, a tie to the even one. -/
def round (precision : Nat) (d : Decimal) : Decimal :=
  if d.size ≤ precision then d
  else
    let dropped := d.size - precision
    let kept := Binary64.roundDiv d.coefficient.natAbs (Nat.pow 10 dropped)
    -- Rounding up can make one digit too many, which is a zero then.
    let (kept, dropped) :=
      if precision < Numeral.size kept then (kept / 10, dropped + 1) else (kept, dropped)
    { coefficient := Numeral.signed (d.coefficient < 0) kept, exponent := d.exponent + dropped }

/-- The integer part: the digits behind the decimal point are dropped. -/
def truncate (d : Decimal) : Int :=
  if 0 ≤ d.exponent then d.coefficient * (Nat.pow 10 d.exponent.toNat : Nat)
  else d.coefficient.tdiv (Nat.pow 10 (-d.exponent).toNat : Nat)

/-- The number of digits to which the product with an integer is worked out. -/
def workingPrecision (d : Decimal) (n : Int) : Nat :=
  Numeral.size n.natAbs + d.size + 1

/-- The product with an integer, in the working precision. -/
def times (d : Decimal) (n : Int) : Decimal :=
  round (d.workingPrecision n) { d with coefficient := d.coefficient * n }

/-- The product with an integer, cut toward zero. -/
def scale (d : Decimal) (n : Int) : Int :=
  (d.times n).truncate

end Decimal

/-- What may stand where a factor is expected. -/
inductive Factor where
  | finite (value : Decimal)
  | infinite
  /-- No number; a signalling one makes every operation on it invalid. -/
  | undefined (signalling : Bool)
deriving DecidableEq, Repr

/-- Why an amount cannot be scaled. -/
inductive ScaleError where
  | read (cause : ReadError)
  /-- The product is no number. -/
  | undefined
  /-- The product is infinite. -/
  | infinite
  /-- The operation has no meaning: zero times infinity, or a signalling operand. -/
  | invalid
  /-- The product exceeds the range of exponents. -/
  | outOfRange
deriving DecidableEq, Repr

/-- The greatest exponent that a product may have in scientific form. -/
def maxProductExponent : Int := 999999

/-- The product of an amount and a finite factor, cut toward zero. The number of digits
before the decimal point decides first, so that no product is cut that comes to zero or
is too long to write. -/
def Decimal.scaleAmount (d : Decimal) (n : Int) : Except ScaleError String :=
  let product := d.times n
  let whole := product.size + product.exponent
  if product.coefficient = 0 || whole ≤ 0 then .ok "0"
  else if maxProductExponent < whole - 1 then .error .outOfRange
  else if Numeral.maxDigits < whole then .error (.read (.numeral .writing))
  else (Amount.write (d.scale n)).mapError .read

/-- The product of an amount and a factor, cut toward zero. -/
def scaleAmount (text : String) (factor : Factor) : Except ScaleError String := do
  let n ← (Amount.read text).mapError .read
  match factor with
  | .finite d => d.scaleAmount n
  | .infinite => throw (if n = 0 then .invalid else .infinite)
  | .undefined signalling => throw (if signalling then .invalid else .undefined)

/-! ## Reading factors -/

namespace Factor

/-- The characters of a factor: blanks at the ends and underscores do not count, and the digits of
every script stand for their values. -/
def plain? (s : List Char) : Option (List Char) :=
  ((Text.strip s).filter (· ≠ '_')).mapM fun c =>
    if c.toNat < 128 then some c.toLower
    else (Text.digitValue? c).map Nat.digitChar

/-- The greatest exponent that a factor may have in scientific form. -/
def maxExponent : Int := 999999999999999999

/-- The least exponent that the last digit of a factor may have. -/
def minExponent : Int := -1999999999999999997

/-- A finite factor: digits with at most one point among them, then an optional exponent. -/
def finite? (negative : Bool) (s : List Char) : Option Factor := do
  let mantissa := s.takeWhile (· ≠ 'e')
  let exponent ← match s.dropWhile (· ≠ 'e') with
    | [] => some 0
    | _ :: rest => Numeral.integer? rest
  let whole := mantissa.takeWhile (· ≠ '.')
  let fraction := (mantissa.dropWhile (· ≠ '.')).drop 1
  let digits ← (whole ++ fraction).mapM Numeral.digit?
  if digits.isEmpty then none
  else
    let n := Numeral.value digits
    let e := exponent - fraction.length
    if e < minExponent || maxExponent < Numeral.size n + e - 1 then none
    else some (.finite ⟨Numeral.signed negative n, e⟩)

def ofText? (text : String) : Option Factor := do
  let s ← plain? text.toList
  let (negative, rest) := Numeral.splitAnySign s
  if rest = "inf".toList || rest = "infinity".toList then some .infinite
  else if "snan".toList.isPrefixOf rest && (rest.drop 4).all Char.isDigit then
    some (.undefined true)
  else if "nan".toList.isPrefixOf rest && (rest.drop 3).all Char.isDigit then
    some (.undefined false)
  else finite? negative rest

end Factor

end PoolLedger
