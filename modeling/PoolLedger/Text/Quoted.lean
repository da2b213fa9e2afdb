import PoolLedger.Text.Basic
import PoolLedger.Text.Printable

/-!
# Quoted texts

Messages show a text between single quotes, or between double quotes when it holds a single quote
and no double one. Inside, the quote in use and the backslash are preceded by a backslash, and a
point without a visible form is written by its code.
-/

namespace PoolLedger.Text

/-- The last `width` hexadecimal digits of `n`, in lower case. -/
def hex (width n : Nat) : List Char :=
  (List.range width).reverse.map fun i => Nat.digitChar (n / Nat.pow 16 i % 16)

/-- The form of one character between the quotes `q`. -/
def quotedChar (q c : Char) : List Char :=
  if c = q || c = '\\' then ['\\', c]
  else if c = '\n' then ['\\', 'n']
  else if c = '\r' then ['\\', 'r']
  else if c = '\t' then ['\\', 't']
  else if isPrintable c then [c]
  else if c.toNat ≤ 0xFF then '\\' :: 'x' :: hex 2 c.toNat
  else if c.toNat ≤ 0xFFFF then '\\' :: 'u' :: hex 4 c.toNat
  else '\\' :: 'U' :: hex 8 c.toNat

/-- The form of one point between the quotes `q`. -/
def quotedPoint (q : Char) : Point → List Char
  | .char c => quotedChar q c
  | p => '\\' :: 'u' :: hex 4 p.code

/-- The quotes around a text: single ones unless only they occur inside. -/
def quoteOf (s : List Point) : Char :=
  if s.contains (.char '\'') && !s.contains (.char '"') then '"' else '\''

def quoted (t : Text) : String :=
  let q := quoteOf t.points
  String.ofList (q :: t.points.flatMap (quotedPoint q) ++ [q])

def quotedList (l : List String) : String :=
  "[" ++ ", ".intercalate (l.map fun (s : String) => quoted s) ++ "]"

end PoolLedger.Text
