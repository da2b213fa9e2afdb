import PoolLedger.Sorting

/-!
# Punycode

A label with characters beyond ASCII is written in ASCII: first its ASCII characters, then the
places of the others in the order of their codes, as differences. A difference is a numeral of
variable length whose digits run from `a` to `z` and from `0` to `9`; the *bias* adapts the
length to earlier differences.
-/

namespace PoolLedger.Punycode

/-- The letter or digit of a value below 36. -/
def digit (d : Nat) : Char :=
  if d < 26 then Char.ofNat ('a'.toNat + d) else Char.ofNat ('0'.toNat + (d - 26))

/-- The least digit with which a numeral goes on behind a place. -/
def threshold (place bias : Nat) : Nat :=
  max 1 (min 26 (place - bias))

theorem threshold_pos (place bias : Nat) : 1 ≤ threshold place bias := by
  unfold threshold
  omega

/-- The numeral of a difference from a place on. -/
def numeral (bias place n : Nat) : List Char :=
  let t := threshold place bias
  if n < t then [digit n]
  else digit (t + (n - t) % (36 - t)) :: numeral bias (place + 36) ((n - t) / (36 - t))
termination_by n
decreasing_by
  have h := threshold_pos place bias
  exact Nat.lt_of_le_of_lt (Nat.div_le_self _ _) (by omega)

/-- The bias that suits a difference. -/
def biasOf (difference place : Nat) : Nat :=
  if 455 < difference then biasOf (difference / 35) (place + 36)
  else place + 36 * difference / (difference + 38)
termination_by difference
decreasing_by exact Nat.div_lt_self (by omega) (by omega)

/-- The bias after a difference among `size` characters. -/
def adapt (difference size : Nat) (isFirst : Bool) : Nat :=
  let d := if isFirst then difference / 700 else difference / 2
  biasOf (d + d / size) 0

/-- The state of writing a label. -/
structure Encoder where
  output : List Char := []
  difference : Nat := 0
  bias : Nat := 72
  /-- The number of characters that are written. -/
  written : Nat

namespace Encoder

/-- Goes past one character of the label while those of a code are written. -/
def pass (basic code : Nat) (e : Encoder) (c : Char) : Encoder :=
  if c.toNat < code then { e with difference := e.difference + 1 }
  else if c.toNat = code then {
    output := e.output ++ numeral e.bias 36 e.difference
    bias := adapt e.difference (e.written + 1) (e.written = basic)
    written := e.written + 1 }
  else e

/-- Writes the characters of some codes, in ascending order, of which those below `next` are
done. -/
def write (label : List Char) (basic : Nat) : List Nat → Nat → Encoder → Encoder
  | [], _, e => e
  | code :: rest, next, e =>
    let e := { e with difference := e.difference + (code - next) * (e.written + 1) }
    let e := label.foldl (pass basic code) e
    write label basic rest (code + 1) { e with difference := e.difference + 1 }

end Encoder

def encode (label : List Char) : List Char :=
  let basic := label.filter fun c => c.toNat < 128
  let codes := ((label.filter fun c => 128 ≤ c.toNat).map Char.toNat).eraseDups
  let e := Encoder.write label basic.length (sortBy (fun a b => decide (a ≤ b)) codes) 128
    { written := basic.length }
  basic ++ (if basic.isEmpty then [] else ['-']) ++ e.output

end PoolLedger.Punycode
