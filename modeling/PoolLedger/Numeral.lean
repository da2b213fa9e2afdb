/-!
# Bounded decimal numerals

Integers are unbounded, their decimal numerals are not: a numeral of more than `maxDigits` digits is
neither read nor written. Leading zeros count, the sign does not.
-/

namespace PoolLedger.Numeral

/-- The greatest number of digits that a numeral may have. -/
def maxDigits : Nat := 4300

/-- The number of digits in the shortest numeral of `n`. -/
def size (n : Nat) : Nat :=
  (Nat.toDigits 10 n).length

/-- The value of a sequence of digits, most significant first. -/
def value (digits : List Nat) : Nat :=
  digits.foldl (fun n d => 10 * n + d) 0

/-- The digit that an ASCII character stands for. -/
def digit? (c : Char) : Option Nat :=
  if c.isDigit then some (c.toNat - '0'.toNat) else none

def splitSign : List Char → Bool × List Char
  | '-' :: rest => (true, rest)
  | s => (false, s)

/-- The integer of the given sign and magnitude. -/
def signed (negative : Bool) (n : Nat) : Int :=
  if negative then -(n : Int) else n

def splitAnySign : List Char → Bool × List Char
  | '+' :: rest => (false, rest)
  | s => splitSign s

/-- The integer that an optional sign and at least one ASCII digit denote, whatever their number. -/
def integer? (s : List Char) : Option Int :=
  let (negative, digits) := splitAnySign s
  match digits.mapM digit? with
  | none | some [] => none
  | some ds => some (signed negative (value ds))

/-- Why a numeral is neither read nor written. -/
inductive TooLong where
  /-- A numeral of `digits` digits was to be read. -/
  | reading (digits : Nat)
  /-- An integer with a longer numeral was to be written. -/
  | writing
deriving DecidableEq, Repr

/-- What is reported about an overlong numeral. -/
def TooLong.message : TooLong → String
  | .reading n =>
    s!"Exceeds the limit ({maxDigits} digits) for integer string conversion: value has {n} digits; use sys.set_int_max_str_digits() to increase the limit"
  | .writing =>
    s!"Exceeds the limit ({maxDigits} digits) for integer string conversion; use sys.set_int_max_str_digits() to increase the limit"

/-- The integer that a sign and a sequence of digits denote. -/
def read (negative : Bool) (digits : List Nat) : Except TooLong Int :=
  if maxDigits < digits.length then .error (.reading digits.length)
  else .ok (signed negative (value digits))

def write (n : Int) : Except TooLong String :=
  if maxDigits < size n.natAbs then .error .writing else .ok (toString n)

end PoolLedger.Numeral
