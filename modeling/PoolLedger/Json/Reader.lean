import PoolLedger.Json.Basic
import PoolLedger.Numeral.Text

/-!
# Reading JSON

`Json.parse` reads the text of one value. White space is the blank, tab, line feed and carriage
return; control characters inside strings are refused, halves of surrogate pairs are not; the words
`NaN`, `Infinity` and `-Infinity` are numbers; of two members with one key the later value takes the
earlier place. An integer may not exceed the greatest length of a numeral, and arrays and objects
may not lie inside each other more than `maxDepth` times.
-/

namespace PoolLedger.Json

/-- Why a text is not read. -/
inductive ParseError where
  /-- The text is not JSON. -/
  | malformed
  /-- An integer exceeds the greatest length. -/
  | numeral (cause : Numeral.TooLong)
  /-- Too many arrays and objects lie inside each other. -/
  | tooDeep
deriving DecidableEq, Repr

/-- How many arrays and objects may lie inside each other. -/
def maxDepth : Nat := 975

namespace Reader

/-- White space between tokens. -/
def isSpace (p : Point) : Bool :=
  p = .char ' ' || p = .char '\t' || p = .char '\n' || p = .char '\r'

def skip (s : List Point) : List Point :=
  s.dropWhile isSpace

def hexDigit? : Point → Option Nat
  | .char c =>
    if c.isDigit then some (c.toNat - '0'.toNat)
    else if 'a' ≤ c && c ≤ 'f' then some (c.toNat - 'a'.toNat + 10)
    else if 'A' ≤ c && c ≤ 'F' then some (c.toNat - 'A'.toNat + 10)
    else none
  | .half _ => none

/-- The 16-bit unit that four hexadecimal digits denote. -/
def unit? : List Point → Option (Nat × List Point)
  | a :: b :: c :: d :: rest => do
    let n ← [a, b, c, d].foldlM (fun n x => (16 * n + ·) <$> hexDigit? x) 0
    some (n, rest)
  | _ => none

/-- The character that an escape letter stands for. -/
def escaped? : Point → Option Char
  | .char '"' => some '"'
  | .char '\\' => some '\\'
  | .char '/' => some '/'
  | .char 'b' => some '\x08'
  | .char 'f' => some '\x0c'
  | .char 'n' => some '\n'
  | .char 'r' => some '\r'
  | .char 't' => some '\t'
  | _ => none

/-- Whether a 16-bit unit is the first half of a pair. -/
def isHigh (unit : Nat) : Bool :=
  0xD800 ≤ unit && unit < 0xDC00

/-- The point after `\u` and the text behind it: a pair of surrogate units is one character. -/
def unicode? (s : List Point) : Option (Point × List Point) := do
  let (high, rest) ← unit? s
  match rest with
  | .char '\\' :: .char 'u' :: more =>
    if isHigh high then
      let (low, after) ← unit? more
      match Point.ofPair? high low with
      | some p => some (p, after)
      | none => some (.ofCode high, rest)
    else some (.ofCode high, rest)
  | _ => some (.ofCode high, rest)

/-- Whether a point stands for itself inside a string. -/
def isPlain (p : Point) : Bool :=
  p ≠ .char '\\' && 0x20 ≤ p.code

/-- The rest of a string after its opening quote, and the text behind its closing one. The points
read so far are in `done`, last first; the fuel bounds the number of points. -/
def string : Nat → List Point → List Point → Except ParseError (Text × List Point)
  | 0, _, _ => .error .malformed
  | _ + 1, _, [] => .error .malformed
  | _ + 1, done, .char '"' :: rest => .ok (⟨done.reverse⟩, rest)
  | fuel + 1, done, .char '\\' :: .char 'u' :: rest =>
    match unicode? rest with
    | some (p, after) => string fuel (p :: done) after
    | none => .error .malformed
  | fuel + 1, done, .char '\\' :: e :: rest =>
    match escaped? e with
    | some c => string fuel (.char c :: done) rest
    | none => .error .malformed
  | fuel + 1, done, p :: rest =>
    if isPlain p then string fuel (p :: done) rest else .error .malformed

def digits (s : List Point) : List Nat :=
  s.map fun p => p.code - '0'.toNat

/-- The fraction of a number and the text behind it; a decimal point without digits is not part of
it. -/
def fraction (s : List Point) : Option (List Point) × List Point :=
  match s with
  | .char '.' :: rest =>
    let ds := rest.takeWhile Point.isDigit
    if ds.isEmpty then (none, s) else (some ds, rest.dropWhile Point.isDigit)
  | _ => (none, s)

/-- The exponent of a number and the text behind it. -/
def exponent (s : List Point) : Option Int × List Point :=
  match s with
  | p :: rest =>
    if p = .char 'e' || p = .char 'E' then
      let (negative, after) := Numeral.signOf rest
      let ds := after.takeWhile Point.isDigit
      if ds.isEmpty then (none, s)
      else
        (some (Numeral.signed negative (Numeral.value (digits ds))), after.dropWhile Point.isDigit)
    else (none, s)
  | [] => (none, s)

/-- A number without its sign, and the text behind it. -/
def unsigned (negative : Bool) (s : List Point) : Except ParseError (Json × List Point) :=
  let run : List Point := match s with
    | .char '0' :: _ => [.char '0']
    | _ => s.takeWhile Point.isDigit
  if run.isEmpty then .error .malformed
  else
    match fraction (s.drop run.length) with
    | (fractional, afterFraction) =>
      match fractional, exponent afterFraction with
      | none, (none, rest) =>
        match Numeral.read negative (digits run) with
        | .ok n => .ok (.int n, rest)
        | .error cause => .error (.numeral cause)
      | fractional, (power, rest) =>
        let places := fractional.getD []
        let coefficient := Numeral.value (digits (run ++ places))
        .ok (.real (.ofDecimal negative coefficient (power.getD 0 - places.length)), rest)

def number : List Point → Except ParseError (Json × List Point)
  | .char '-' :: rest => unsigned true rest
  | s => unsigned false s

/-- The words that are values. -/
def words : List (String × Json) :=
  [("null", .null), ("true", .bool true), ("false", .bool false), ("NaN", .real .undefined),
   ("Infinity", .real (.infinite false)), ("-Infinity", .real (.infinite true))]

/-- A word or a number, and the text behind it. -/
def scalar (s : List Point) : Except ParseError (Json × List Point) :=
  match words.find? fun w => (Text.ofString w.1).points.isPrefixOf s with
  | some (word, v) => .ok (v, s.drop word.length)
  | none => number s

mutual

/-- One value and the text behind it. The fuel bounds the number of tokens, and `depth` how many
arrays and objects may still be entered. -/
def value : Nat → Nat → List Point → Except ParseError (Json × List Point)
  | 0, _, _ => .error .malformed
  | fuel + 1, depth, s =>
    match s with
    | .char '"' :: rest => do
      let (text, after) ← string (rest.length + 1) [] rest
      return (.str text, after)
    | .char '[' :: rest =>
      match depth with
      | 0 => .error .tooDeep
      | depth + 1 =>
        match skip rest with
        | .char ']' :: after => .ok (.arr [], after)
        | first => items fuel depth [] first
    | .char '{' :: rest =>
      match depth with
      | 0 => .error .tooDeep
      | depth + 1 =>
        match skip rest with
        | .char '}' :: after => .ok (.obj [], after)
        | first => members fuel depth [] first
    | _ => scalar s

/-- The items of an array from the next one on; `done` holds those read, last first. -/
def items : Nat → Nat → List Json → List Point → Except ParseError (Json × List Point)
  | 0, _, _, _ => .error .malformed
  | fuel + 1, depth, done, s => do
    let (v, rest) ← value fuel depth s
    match skip rest with
    | .char ',' :: after => items fuel depth (v :: done) (skip after)
    | .char ']' :: after => return (.arr (v :: done).reverse, after)
    | _ => throw .malformed

/-- The members of an object from the next one on; `done` holds those read. -/
def members : Nat → Nat → Members → List Point → Except ParseError (Json × List Point)
  | 0, _, _, _ => .error .malformed
  | fuel + 1, depth, done, s => do
    match s with
    | .char '"' :: rest =>
      let (key, after) ← string (rest.length + 1) [] rest
      match skip after with
      | .char ':' :: body =>
        let (v, behind) ← value fuel depth (skip body)
        match skip behind with
        | .char ',' :: next => members fuel depth (done.put key v) (skip next)
        | .char '}' :: last => return (.obj (done.put key v), last)
        | _ => throw .malformed
      | _ => throw .malformed
    | _ => throw .malformed

end

end Reader

def parse (text : Text) : Except ParseError Json := do
  let s := text.points
  let (v, rest) ← Reader.value (2 * s.length + 2) maxDepth (Reader.skip s)
  if (Reader.skip rest).isEmpty then return v else throw .malformed

end PoolLedger.Json
