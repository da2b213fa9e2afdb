import PoolLedger.Json.Basic
import PoolLedger.Numeral
import PoolLedger.Text.Blank

/-!
# Values of settings

A setting is a text, an integer, a rate or a truth value. A JSON value of the right kind is taken as
it is, and a text for the value that it denotes. Each kind has its own spellings: `integer?`,
`isNumeric` and `truth?` say which.
-/

namespace PoolLedger.Settings

/-! ## Integers -/

/-- A numeral without the zeros in front of its first other digit, and without the underscores among
them. One zero is kept if there is no other digit before the point. -/
def withoutZeros? : List Char → Option (List Char)
  | '0' :: rest =>
    let zeros := '0' :: rest.takeWhile fun c => c = '0' || c = '_'
    match rest.dropWhile fun c => c = '0' || c = '_' with
    | [] => if zeros.getLast? = some '_' then none else some ['0']
    | c :: more =>
      if c = '.' then if zeros.getLast? = some '_' then none else some ('0' :: '.' :: more)
      else if c.isDigit then some (c :: more)
      else none
  | c :: more => if c.isDigit then some (c :: more) else none
  | [] => none

/-- What is before the point of a numeral, if only zeros are behind it. -/
def wholePart? (s : List Char) : Option (List Char) :=
  match s.dropWhile (· ≠ '.') with
  | [] => some s
  | _ :: places =>
    if !places.isEmpty && places.all (· = '0') then some (s.takeWhile (· ≠ '.')) else none

/-- Whether two underscores stand beside each other. -/
def hasDouble : List Char → Bool
  | '_' :: '_' :: _ => true
  | _ :: rest => hasDouble rest
  | [] => false

/-- A text without its underscores, of which none may be at an end or beside another. -/
def joined? (s : List Char) : Option (List Char) :=
  if s.head? = some '_' || s.getLast? = some '_' || hasDouble s then none
  else some (s.filter (· ≠ '_'))

/-- The integer that a text denotes: white space around it, a sign, single underscores
between the digits and a fraction of zeros do not count, nor do zeros in front of a numeral
without a minus sign. -/
def integerOfText? (s : String) : Option Int := do
  let numeral ← match Text.trim s.toList with
    | '+' :: rest => withoutZeros? rest
    | '-' :: rest => some ('-' :: rest)
    | rest => withoutZeros? rest
  let (negative, whole) := Numeral.splitSign (← joined? (← wholePart? numeral))
  let digits ← whole.mapM Numeral.digit?
  if digits.isEmpty || (digits.head? = some 0 && 1 < digits.length) then none
  else (Numeral.read negative digits).toOption

/-- The integer that a number is, if it is one of 64 bits. -/
def integerOfReal? (x : Binary64) : Option Int := do
  let (n, d) ← x.quotient?
  if n % d = 0 && -9223372036854775808 < n / d && n / d < 9223372036854775808 then some (n / d)
  else none

/-- An integer: a number without a fraction, a truth value, or a text. -/
def integer? : Json → Option Int
  | .int n => some n
  | .bool b => some (if b then 1 else 0)
  | .real x => integerOfReal? x
  | .str s => s.toString?.bind integerOfText?
  | _ => none

/-! ## Rates -/

/-- Whether a text is an exponent or nothing. -/
def isExponent : List Char → Bool
  | [] => true
  | e :: rest => (e = 'e' || e = 'E') && (Numeral.integer? rest).isSome

/-- Whether a text is digits with at most one point before, between or after them, and an
exponent. -/
def isPlainReal (s : List Char) : Bool :=
  let whole := s.takeWhile Char.isDigit
  match s.dropWhile Char.isDigit with
  | '.' :: rest =>
    !(whole.isEmpty && (rest.takeWhile Char.isDigit).isEmpty)
      && isExponent (rest.dropWhile Char.isDigit)
  | rest => !whole.isEmpty && isExponent rest

/-- Whether a text denotes a number with a sign or without: finite, infinite or undefined. -/
def isReal (s : List Char) : Bool :=
  let unsigned := (Numeral.splitAnySign s).2
  ["inf", "infinity", "nan"].contains (String.ofList (unsigned.map Char.toLower))
    || isPlainReal unsigned

/-- Whether a text denotes a number: one with white space around it, or one with underscores. -/
def isRealText (s : List Char) : Bool :=
  isReal (Text.trim s) || (joined? s).any isReal

/-- The least integer that is too large for a number of the 64-bit binary format. -/
def realLimit : Nat := Nat.pow 2 1024 - Nat.pow 2 970

/-- Whether the value is a number or denotes one. -/
def isNumeric : Json → Bool
  | .int n => n.natAbs < realLimit
  | .real _ | .bool _ => true
  | .str s => s.toString?.any fun s => isRealText s.toList
  | _ => false

/-! ## Texts and truth values -/

def text? : Json → Option String
  | .str s => s.toString?
  | _ => none

/-- The texts for the two truth values. -/
def truthTexts : List (String × Bool) :=
  [("0", false), ("off", false), ("f", false), ("false", false), ("n", false), ("no", false),
    ("1", true), ("on", true), ("t", true), ("true", true), ("y", true), ("yes", true)]

/-- A text with its ASCII letters in lower case. -/
def lower (s : String) : String :=
  String.ofList (s.toList.map Char.toLower)

/-- A truth value: zero or one, or a text for one. -/
def truth? : Json → Option Bool
  | .bool b => some b
  | .int n => if n = 0 then some false else if n = 1 then some true else none
  | .real x => if x.isZero then some false else if x = .finite false 1 0 then some true else none
  | .str s => s.toString?.bind fun s => truthTexts.lookup (lower s)
  | _ => none

end PoolLedger.Settings
