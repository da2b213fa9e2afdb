import PoolLedger.Json.Basic
import PoolLedger.Text.Quoted

/-!
# Writing JSON

Stored values are written on one line with `", "` and `": "` between their parts, members in order,
and in ASCII: every other character is written by its 16-bit units. `Json.display` is the form in
which messages show a value.
-/

namespace PoolLedger.Json

namespace Writer

def unit (n : Nat) : List Char :=
  '\\' :: 'u' :: Text.hex 4 n

def char (c : Char) : List Char :=
  if c = '"' || c = '\\' then ['\\', c]
  else if c = '\n' then ['\\', 'n']
  else if c = '\r' then ['\\', 'r']
  else if c = '\t' then ['\\', 't']
  else if c = '\x08' then ['\\', 'b']
  else if c = '\x0c' then ['\\', 'f']
  else if 0x20 ≤ c.toNat && c.toNat ≤ 0x7E then [c]
  else if c.toNat < 0x10000 then unit c.toNat
  else unit (0xD800 + (c.toNat - 0x10000) / 0x400) ++ unit (0xDC00 + (c.toNat - 0x10000) % 0x400)

def point : Point → List Char
  | .char c => char c
  | p => unit p.code

def string (s : Text) : List Char :=
  '"' :: s.points.flatMap point ++ ['"']

/-- The texts with a comma and a blank between them. -/
def separated : List (List Char) → List Char
  | [] => []
  | [s] => s
  | s :: rest => s ++ ',' :: ' ' :: separated rest

/-- A number with a fraction or an exponent. -/
def real : Binary64 → List Char
  | .undefined => "NaN".toList
  | .infinite negative => (if negative then "-Infinity" else "Infinity").toList
  | x => x.text.toList

mutual

def value : Json → List Char
  | .null => "null".toList
  | .bool b => (if b then "true" else "false").toList
  | .int n => (toString n).toList
  | .real x => real x
  | .str s => string s
  | .arr l => '[' :: separated (items l) ++ [']']
  | .obj ms => '{' :: separated (members ms) ++ ['}']

def items : List Json → List (List Char)
  | [] => []
  | v :: rest => value v :: items rest

def members : Members → List (List Char)
  | [] => []
  | (k, v) :: rest => (string k ++ ':' :: ' ' :: value v) :: members rest

end

end Writer

/-- The text under which a value is stored. -/
def write (v : Json) : String :=
  String.ofList (Writer.value v)

mutual

/-- A value as messages show it. -/
def display : Json → String
  | .null => "None"
  | .bool b => if b then "True" else "False"
  | .int n => toString n
  | .real x => x.text
  | .str s => Text.quoted s
  | .arr l => "[" ++ ", ".intercalate (displayItems l) ++ "]"
  | .obj ms => "\x7b" ++ ", ".intercalate (displayMembers ms) ++ "\x7d"

/-- The items of an array as messages show them. -/
def displayItems : List Json → List String
  | [] => []
  | v :: rest => display v :: displayItems rest

/-- The members of an object as messages show them. -/
def displayMembers : Members → List String
  | [] => []
  | (k, v) :: rest => (Text.quoted k ++ ": " ++ display v) :: displayMembers rest

end

/-- A value as it stands in running text: a string is shown as it is. -/
def inText : Json → Text
  | .str s => s
  | v => display v

end PoolLedger.Json
