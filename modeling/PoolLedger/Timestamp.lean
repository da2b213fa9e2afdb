import PoolLedger.Json.Basic
import PoolLedger.Numeral

/-!
# Points in time

A timestamp is a calendar date and a time of day in microseconds, with the offset of its zone from
universal time or without a zone. `Timestamp.ofText?` reads `2024-03-01T12:00:00.5+09:00` and its
variants: a blank or underscore for the `T`, no seconds, no fraction, no zone, `Z` for a zero
offset, only the date. A count of seconds since 1970 is read too, and a count too large for seconds
is one of milliseconds (`Timestamp.ofCount?`, `Timestamp.ofReal?`).
-/

namespace PoolLedger

/-- A point in time. -/
structure Timestamp where
  year : Nat
  month : Nat
  day : Nat
  hour : Nat := 0
  minute : Nat := 0
  second : Nat := 0
  microsecond : Nat := 0
  /-- The offset of the zone in minutes, if one is given. -/
  offset : Option Int := none
deriving DecidableEq, Repr

namespace Timestamp

/-! ## The calendar -/

def isLeap (year : Nat) : Bool :=
  year % 4 = 0 && (year % 100 ≠ 0 || year % 400 = 0)

def daysIn (year month : Nat) : Nat :=
  if month = 2 then (if isLeap year then 29 else 28)
  else if month ∈ [4, 6, 9, 11] then 30
  else 31

/-- The date that lies `days` days after the first of January of the year 1. -/
def dateOf (days : Nat) : Nat × Nat × Nat :=
  let cycles := days / 146097
  let inCycle := days % 146097
  let centuries := min 3 (inCycle / 36524)
  let inCentury := inCycle - 36524 * centuries
  let fours := inCentury / 1461
  let inFour := inCentury % 1461
  let years := min 3 (inFour / 365)
  let year := 400 * cycles + 100 * centuries + 4 * fours + years + 1
  let rec month : Nat → Nat → Nat → Nat × Nat × Nat
    | 0, m, d => (year, m, d + 1)
    | fuel + 1, m, d =>
      if d < daysIn year m then (year, m, d + 1) else month fuel (m + 1) (d - daysIn year m)
  month 11 1 (inFour - 365 * years)

/-- The number of days from the first of January of the year 1 to that of 1970. -/
def epochDays : Int := 719162

/-- The greatest count since 1970 that is one of seconds; greater ones are of milliseconds. -/
def greatestSeconds : Nat := 20000000000

/-- The microseconds in the unit of a count, which is told by its absolute value `n / d`. -/
def unitOf (n d : Nat) : Nat :=
  if n ≤ greatestSeconds * d then 1000000 else 1000

/-- The least number of microseconds since 1970, the start of the year 1. -/
def minMicroseconds : Int := -62135596800000000

/-- The greatest number of microseconds since 1970, the end of the year 9999. -/
def maxMicroseconds : Int := 253402300799999999

/-- The point that lies so many microseconds after the start of 1970 in universal time. -/
def ofMicroseconds? (n : Int) : Option Timestamp :=
  if n < minMicroseconds || maxMicroseconds < n then none
  else
    let seconds := n / 1000000
    let (year, month, day) := dateOf (seconds / 86400 + epochDays).toNat
    let inDay := (seconds % 86400).toNat
    some {
      year, month, day, hour := inDay / 3600, minute := inDay / 60 % 60, second := inDay % 60,
      microsecond := (n % 1000000).toNat, offset := some 0 }

/-- The point that a whole count since 1970 denotes. -/
def ofCount? (n : Int) : Option Timestamp :=
  ofMicroseconds? (n * unitOf n.natAbs 1)

/-- The microseconds in a part `n / d` of a unit. The part is turned into microseconds with the
precision of `Binary64` and then rounded, a half up. -/
def partMicroseconds (n d unit : Nat) : Nat :=
  if n = 0 then 0
  else
    let (m, q) := Binary64.nearest (n * unit) d
    let (a, b) := Binary64.scaled m 1 2 q
    (2 * a + b) / (2 * b)

/-- The point that a count since 1970 with a fraction denotes. -/
def ofReal? (x : Binary64) : Option Timestamp := do
  let (n, d) ← x.quotient?
  let unit := unitOf n.natAbs d
  ofMicroseconds? (n / d * unit + partMicroseconds (n % d).toNat d unit)

/-! ## Reading -/

/-- A number of exactly `n` ASCII digits, and the text behind it. -/
def digits? (n : Nat) (s : List Char) : Option (Nat × List Char) := do
  let ds ← (s.take n).mapM Numeral.digit?
  if ds.length = n then some (Numeral.value ds, s.drop n) else none

def after? (c : Char) : List Char → Option (List Char)
  | d :: rest => if d = c then some rest else none
  | [] => none

/-- A date `2024-03-01`, and the text behind it. -/
def date? (s : List Char) : Option (Timestamp × List Char) := do
  let (year, s) ← digits? 4 s
  let (month, s) ← digits? 2 (← after? '-' s)
  let (day, s) ← digits? 2 (← after? '-' s)
  if 1 ≤ year && 1 ≤ month && month ≤ 12 && 1 ≤ day && day ≤ daysIn year month then
    some ({ year, month, day }, s)
  else none

/-- The microseconds of a fraction, and the text behind it; digits after the sixth do not count. -/
def fraction? (s : List Char) : Option (Nat × List Char) := do
  let ds ← ((s.takeWhile Char.isDigit).take 6).mapM Numeral.digit?
  if ds.isEmpty then none
  else some (Numeral.value ds * Nat.pow 10 (6 - ds.length), s.dropWhile Char.isDigit)

/-- Seconds with an optional fraction, and the text behind them. -/
def seconds? : List Char → Option ((Nat × Nat) × List Char)
  | ':' :: rest => do
    let (second, rest) ← digits? 2 rest
    if 60 ≤ second then none
    else
      match rest with
      | c :: more =>
        if c = '.' || c = ',' then do
          let (micro, rest) ← fraction? more
          some ((second, micro), rest)
        else some ((second, 0), rest)
      | [] => some ((second, 0), rest)
  | s => some ((0, 0), s)

/-- A zone: nothing, `Z`, or a sign with hours and minutes. -/
def zone? : List Char → Option (Option Int)
  | [] => some none
  | c :: rest => do
    if c = 'Z' || c = 'z' then if rest.isEmpty then some (some 0) else none
    else
      let sign : Int ←
        if c = '+' then some 1 else if c = '-' || c = '\u2212' then some (-1) else none
      let (hours, rest) ← digits? 2 rest
      let (minutes, rest) ← digits? 2 ((after? ':' rest).getD rest)
      if rest.isEmpty && minutes < 60 && hours < 24 then
        some (some (sign * (60 * hours + minutes : Nat)))
      else none

def full? (s : List Char) : Option Timestamp := do
  let (date, s) ← date? s
  match s with
  | c :: s =>
    if c = 'T' || c = 't' || c = ' ' || c = '_' then
      let (hour, s) ← digits? 2 s
      let (minute, s) ← digits? 2 (← after? ':' s)
      let ((second, microsecond), s) ← seconds? s
      let offset ← zone? s
      if hour < 24 && minute < 60 then
        some { date with hour, minute, second, microsecond, offset }
      else none
    else none
  | [] => some date

def exponent? : List Char → Option Int
  | [] => some 0
  | e :: rest => if e = 'e' || e = 'E' then Numeral.integer? rest else none

/-- The point that a text with a count since 1970 denotes: an integer, or digits with a point
before, between or after them and perhaps an exponent. -/
def count? (s : List Char) : Option Timestamp := do
  match s.dropWhile (· ≠ '.') with
  | [] => ofCount? (← Numeral.integer? s)
  | _ :: rest =>
    let (negative, unsigned) := Numeral.splitAnySign s
    let whole ← (unsigned.takeWhile (· ≠ '.')).mapM Numeral.digit?
    let places ← (rest.takeWhile Char.isDigit).mapM Numeral.digit?
    let exponent ← exponent? (rest.dropWhile Char.isDigit)
    if whole.isEmpty && places.isEmpty then none
    else ofReal? (.ofDecimal negative (Numeral.value (whole ++ places)) (exponent - places.length))

def ofText? (text : String) : Option Timestamp :=
  (full? text.toList).orElse fun _ => count? text.toList

/-- The point in time that a JSON value denotes: a text or a count since 1970. -/
def ofJson? : Json → Option Timestamp
  | .str s => s.toString?.bind ofText?
  | .int n => ofCount? n
  | .real x => ofReal? x
  | _ => none

/-! ## Writing -/

/-- The last `width` decimal digits of a number. -/
def padded (width n : Nat) : String :=
  let ds := Nat.toDigits 10 n
  String.ofList (List.replicate (width - ds.length) '0' ++ ds)

def zoneText : Option Int → String
  | none => ""
  | some n =>
    if n = 0 then "Z"
    else (if n < 0 then "-" else "+") ++ padded 2 (n.natAbs / 60) ++ ":" ++ padded 2 (n.natAbs % 60)

def text (t : Timestamp) : String :=
  padded 4 t.year ++ "-" ++ padded 2 t.month ++ "-" ++ padded 2 t.day ++ "T" ++ padded 2 t.hour
    ++ ":" ++ padded 2 t.minute ++ ":" ++ padded 2 t.second
    ++ (if t.microsecond = 0 then "" else "." ++ padded 6 t.microsecond) ++ zoneText t.offset

end Timestamp

end PoolLedger
