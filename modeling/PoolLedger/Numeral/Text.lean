import PoolLedger.Numeral
import PoolLedger.Text.Basic
import PoolLedger.Text.Blank
import PoolLedger.Text.Digit

/-!
# Numerals in texts

In a text an integer may have white space around it, a sign, digits of any script, and
single underscores between them. A run of digits that is too long is reported as such
whatever comes behind it.
-/

namespace PoolLedger.Numeral

/-- Why a text denotes no integer. -/
inductive TextError where
  | malformed
  | tooLong (cause : TooLong)
deriving DecidableEq, Repr

/-- Whether a point is white space around a numeral. -/
def isMargin : Point → Bool
  | .char c => Text.isWhiteSpace c
  | .half _ => false

/-- The digit of some script that a point is. -/
def digitOf? : Point → Option Nat
  | .char c => Text.digitValue? c
  | .half _ => none

/-- Whether a point belongs to the digits of a numeral. -/
def isInRun (p : Point) : Bool :=
  p = .char '_' || (digitOf? p).isSome

/-- The digits in a run of digits with single underscores between them. -/
def digitsOfRun? : List Point → Option (List Nat)
  | [] => none
  | [p] => (digitOf? p).map ([·])
  | p :: .char '_' :: rest => do
    let d ← digitOf? p
    return d :: (← digitsOfRun? rest)
  | p :: rest => do
    let d ← digitOf? p
    return d :: (← digitsOfRun? rest)

/-- The sign of a numeral, and what comes behind it. -/
def signOf : List Point → Bool × List Point
  | .char '-' :: rest => (true, rest)
  | .char '+' :: rest => (false, rest)
  | s => (false, s)

def ofText (text : Text) : Except TextError Int :=
  let (negative, body) := signOf (text.points.dropWhile isMargin)
  match digitsOfRun? (body.takeWhile isInRun) with
  | none => .error .malformed
  | some digits =>
    match read negative digits with
    | .error cause => .error (.tooLong cause)
    | .ok n =>
      if ((body.dropWhile isInRun).dropWhile isMargin).isEmpty then .ok n else .error .malformed

end PoolLedger.Numeral
