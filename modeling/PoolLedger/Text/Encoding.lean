import PoolLedger.Text.Basic

/-!
# Wide encodings

Text in units of two or four bytes is recognised by the zero bytes in its first characters
(`Encoding.detect`), and everything else is UTF-8. Halves are read as they stand; an incomplete unit
and a code beyond the last character are not read.
-/

namespace PoolLedger

/-- The encodings of a text. -/
inductive Encoding where
  | utf8
  | utf16 (bigEndian : Bool)
  | utf32 (bigEndian : Bool)
deriving DecidableEq, Repr

namespace Encoding

/-- The encoding of a text whose first character, and second if there is one, are ASCII. -/
def detect : List UInt8 → Encoding
  | 0 :: 0 :: _ :: _ :: _ => utf32 true
  | 0 :: _ :: _ :: _ :: _ => utf16 true
  | _ :: 0 :: 0 :: 0 :: _ => utf32 false
  | _ :: 0 :: _ :: _ :: _ => utf16 false
  | [0, _] => utf16 true
  | [_, 0] => utf16 false
  | _ => utf8

/-- The number that some bytes denote, the most significant first. -/
def number (bytes : List UInt8) : Nat :=
  bytes.foldl (fun n b => 256 * n + b.toNat) 0

/-- The units of two bytes. -/
def units16? (bigEndian : Bool) : List UInt8 → Option (List Nat)
  | [] => some []
  | a :: b :: rest => do
    let unit := number (if bigEndian then [a, b] else [b, a])
    return unit :: (← units16? bigEndian rest)
  | _ => none

def units32? (bigEndian : Bool) : List UInt8 → Option (List Nat)
  | [] => some []
  | a :: b :: c :: d :: rest => do
    let unit := number (if bigEndian then [a, b, c, d] else [d, c, b, a])
    return unit :: (← units32? bigEndian rest)
  | _ => none

/-- The points of units of two bytes, in which two halves of a pair are one character. -/
def ofUnits16 : List Nat → List Point
  | [] => []
  | [unit] => [.ofCode unit]
  | high :: low :: rest =>
    match Point.ofPair? high low with
    | some p => p :: ofUnits16 rest
    | none => .ofCode high :: ofUnits16 (low :: rest)

def ofUnits32? (units : List Nat) : Option (List Point) :=
  units.mapM fun n => if n < 0x110000 then some (.ofCode n) else none

end Encoding

/-- The text of a body, which is given by the string that its bytes are in UTF-8. A byte order mark
in front of UTF-8 does not count. -/
def Text.ofBody? (body : String) : Option Text :=
  let bytes := body.toUTF8.toList
  match Encoding.detect bytes with
  | .utf8 =>
    match body.toList with
    | '\uFEFF' :: rest => some ⟨rest.map .char⟩
    | all => some ⟨all.map .char⟩
  | .utf16 bigEndian => do
    return ⟨Encoding.ofUnits16 (← Encoding.units16? bigEndian bytes)⟩
  | .utf32 bigEndian => do
    return ⟨← Encoding.ofUnits32? (← Encoding.units32? bigEndian bytes)⟩

end PoolLedger
