import PoolLedger.Address.Letters
import PoolLedger.Address.Percent
import PoolLedger.Address.Punycode
import PoolLedger.Numeral

/-!
# Hosts

A host is named by four numbers with dots between them, by eight hexadecimal groups between
brackets, or by labels with dots between them. `Host.normal?` is the form in which an address shows
it: labels in lower case and in ASCII.
-/

namespace PoolLedger.Host

/-! ## Numbers -/

/-- Whether a text is runs of digits with `n` single characters between them, which may be any.
Behind the first digit of a run the run may end. -/
def isDotted : Nat → Bool → List Char → Bool
  | n, inRun, [] => inRun && n = 0
  | n, inRun, c :: rest =>
    (c.isDigit && isDotted n true rest)
      || (match n with
        | n + 1 => inRun && isDotted n false rest
        | 0 => false)

/-- Whether a text is a number up to 255 without zeros in front. -/
def isOctet (s : List Char) : Bool :=
  !s.isEmpty && s.length ≤ 3 && (s.head? ≠ some '0' || s.length = 1)
    && (s.mapM Numeral.digit?).any fun ds => Numeral.value ds ≤ 255

/-- Whether a text is four numbers up to 255 with dots between them. -/
def isQuad (s : List Char) : Bool :=
  let parts := s.splitOn '.'
  parts.length = 4 && parts.all isOctet

/-! ## Groups -/

/-- Whether a character is a hexadecimal digit. -/
def isHex (c : Char) : Bool :=
  c.isDigit || ('a' ≤ c && c ≤ 'f') || ('A' ≤ c && c ≤ 'F')

/-- Whether a text is a group of one to four hexadecimal digits. -/
def isGroup (s : List Char) : Bool :=
  !s.isEmpty && s.length ≤ 4 && s.all isHex

/-- The groups of a text, in which four numbers at the end count as two groups. -/
def groups? (s : List Char) : Option (List (List Char)) :=
  let parts := s.splitOn ':'
  match parts.getLast? with
  | some last =>
    if last.contains '.' then
      if isQuad last then some (parts.dropLast ++ [['0'], ['0']]) else none
    else some parts
  | none => none

/-- Whether the groups before or behind a gap are well formed: none if the gap is at the end, where
an empty part marks it. -/
def isSide (parts : List (List Char)) : Bool :=
  parts = [[]] || (!parts.isEmpty && parts.all isGroup)

/-- The number of groups on a side of a gap. -/
def sideSize (parts : List (List Char)) : Nat :=
  if parts = [[]] then 0 else parts.length

/-- Whether eight groups are given, or fewer with one gap. -/
def areGroups (parts : List (List Char)) : Bool :=
  match parts with
  | [] => false
  | first :: rest =>
    let before := first :: rest.takeWhile fun p => !p.isEmpty
    match rest.dropWhile fun p => !p.isEmpty with
    | _ :: after :: more =>
      let after := after :: more
      isSide before && isSide after && sideSize before + sideSize after < 8
    | _ => parts.length = 8 && parts.all isGroup

/-- Whether a text is what may stand between brackets: groups, and perhaps a zone behind a percent
sign. -/
def isBracketed (s : List Char) : Bool :=
  let address := s.takeWhile (· ≠ '%')
  let zoned := match s.dropWhile (· ≠ '%') with
    | [] => true
    | _ :: zone => !zone.isEmpty && !zone.contains '%'
  zoned && !s.contains '/' && 3 ≤ (address.splitOn ':').length && (groups? address).any areGroups

/-! ## Names -/

def maxLabel : Nat := 63

def maxName : Nat := 253

/-- A label in ASCII. It holds permitted characters only, no hyphen at an end, and no two hyphens
behind the first two characters unless it is in ASCII already. -/
def label? (s : List Char) : Option (List Char) :=
  let isAscii := s.all fun c => c.toNat < 128
  let isEncoded := isAscii && "xn--".toList.isPrefixOf s
  if s.isEmpty || !s.all Letters.isPermitted || s.head? = some '-' || s.getLast? = some '-'
      || (!isEncoded && (s.drop 2).take 2 = ['-', '-']) then none
  else
    let ascii := if isAscii then s else "xn--".toList ++ Punycode.encode s
    if maxLabel < ascii.length then none else some ascii

def isDot (c : Char) : Bool :=
  c = '.' || c = '\u3002' || c = '\uFF0E' || c = '\uFF61'

/-- A name in ASCII. An empty label may stand at its end only. -/
def name? (s : List Char) : Option (List Char) := do
  let labels := s.splitOnP isDot
  let closed := 1 < labels.length && labels.getLast? = some []
  let ascii ← (if closed then labels.dropLast else labels).mapM label?
  let name := ['.'].intercalate (if closed then ascii ++ [[]] else ascii)
  if (if closed then maxName + 1 else maxName) < name.length then none else some name

/-! ## All hosts -/

def hasBrackets (s : List Char) : Bool :=
  s.head? = some '[' && 1 < s.length && s.getLast? = some ']'

/-- The form of a host in an address. A host of ASCII characters that is neither numbers nor
groups is not looked into. -/
def normal? (s : List Char) : Option (List Char) :=
  if s.isEmpty then some []
  else if isDotted 3 false s then if isQuad s then some s else none
  else if hasBrackets s then if isBracketed (s.drop 1).dropLast then some s else none
  else
    let lower := s.map Letters.lower
    if s.all fun c => c.toNat < 128 then some (Percent.encode Percent.host lower) else name? lower

end PoolLedger.Host
