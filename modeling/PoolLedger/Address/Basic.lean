import PoolLedger.Address.Host
import PoolLedger.Numeral.Text

/-!
# Addresses

An address has a scheme, a user, a host, the number of a service at the host, a path, a query
and a fragment, and every part may be missing. Reading one (`Address.ofText?`) brings each part
into its usual form: the scheme and the host are in lower case, the usual service of a scheme is
left out, the segments `.` and `..` of a path are worked off, and characters that a part
reserves are percent-encoded.
-/

namespace PoolLedger

/-- An address in its usual form. -/
structure Address where
  scheme : String := ""
  user : String := ""
  host : String := ""
  /-- The number of the service at the host. -/
  service : Option Int := none
  path : String := ""
  query : Option String := none
  fragment : Option String := none
deriving DecidableEq, Repr

namespace Address

/-! ## Parts -/

/-- What is before the first colon, if it has the form of a scheme, and what is behind it. -/
def splitScheme (s : List Char) : List Char × List Char :=
  let isSchemeChar (c : Char) : Bool := c.isAlphanum || c = '+' || c = '.' || c = '-'
  let scheme := if s.head?.any Char.isAlpha then s.takeWhile isSchemeChar else []
  match s.drop scheme.length with
  | ':' :: rest => (scheme, rest)
  | _ => ([], s)

/-- What is between two slashes in front and the path, and the rest. -/
def splitAuthority (s : List Char) : List Char × List Char :=
  let isInside (c : Char) : Bool := c ≠ '/' && c ≠ '?' && c ≠ '#'
  match s with
  | '/' :: '/' :: rest => (rest.takeWhile isInside, rest.dropWhile isInside)
  | _ => ([], s)

/-- What is behind a mark in front, up to the end of its part, and the rest. -/
def splitMarked (mark : Char) (isInside : Char → Bool) (s : List Char) :
    Option (List Char) × List Char :=
  match s with
  | c :: rest =>
    if c = mark then (some (rest.takeWhile isInside), rest.dropWhile isInside) else (none, s)
  | [] => (none, s)

/-- What is before and behind the last occurrence of a character. -/
def splitLast (c : Char) (s : List Char) : Option (List Char × List Char) :=
  if s.contains c then
    let behind := (s.reverse.takeWhile (· ≠ c)).reverse
    some (s.take (s.length - behind.length - 1), behind)
  else none

/-- A host, which may stand between brackets, and what is behind it. -/
def splitHost (s : List Char) : List Char × List Char :=
  match s, splitLast ']' s with
  | '[' :: _, some (inside, behind) => (inside ++ [']'], behind)
  | _, _ => (s.takeWhile (· ≠ ':'), s.dropWhile (· ≠ ':'))

def withoutColon : List Char → List Char
  | ':' :: rest => rest
  | s => s

/-! ## Usual forms -/

/-- The number of the usual service of a scheme. -/
def usualService? (scheme : String) : Option Int :=
  [("ftp", 21), ("http", 80), ("https", 443), ("ws", 80), ("wss", 443)].lookup scheme

/-- The number of a service: nothing if none is given, or the usual one of the scheme. -/
def service? (scheme : String) (s : List Char) : Option (Option Int) :=
  if s.isEmpty then some none
  else
    match Numeral.ofText (String.ofList s) with
    | .ok n => some (if usualService? scheme = some n then none else some n)
    | .error _ => none

/-- Works off one segment of a path behind others. -/
def step (done : List (List Char)) (segment : List Char) : List (List Char) :=
  if segment = ['.'] then done
  else if segment = ['.', '.'] then if done = [[]] then done else done.dropLast
  else done ++ [segment]

/-- A path with its segments `.` and `..` worked off. -/
def withoutDots (path : List Char) : List Char :=
  let segments := path.splitOn '/'
  if segments.contains ['.'] || segments.contains ['.', '.'] then
    ['/'].intercalate (segments.foldl step [])
  else path

/-! ## Reading -/

def maxLength : Nat := 65536

/-- Whether a character is one of the control characters of ASCII. -/
def isControl (c : Char) : Bool :=
  c.toNat < 0x20 || c.toNat = 0x7F

/-- Whether a path may stand in an address that has neither scheme nor host. -/
def isFreePath : List Char → Bool
  | ':' :: _ => false
  | '/' :: '/' :: _ => false
  | _ => true

/-- The parts of an address as they are written. -/
structure Written where
  scheme : List Char
  user : List Char
  host : List Char
  service : List Char
  path : List Char
  query : Option (List Char)
  fragment : Option (List Char)

def Written.ofList (s : List Char) : Written :=
  let (scheme, s) := splitScheme s
  let (authority, s) := splitAuthority s
  let path := s.takeWhile fun c => c ≠ '?' && c ≠ '#'
  let (query, s) := splitMarked '?' (· ≠ '#') (s.drop path.length)
  let (fragment, _) := splitMarked '#' (fun _ => true) s
  let (user, s) := (splitLast '@' authority).getD ([], authority)
  let (host, s) := splitHost s
  { scheme, user, host, service := withoutColon s, path, query, fragment }

def Written.usual? (w : Written) : Option Address := do
  let host ← Host.normal? w.host
  let service ← service? (String.ofList w.scheme) w.service
  let isBound := !w.scheme.isEmpty || !w.user.isEmpty || !host.isEmpty || service.isSome
  if !isBound && !isFreePath w.path then none
  let path := if isBound then withoutDots w.path else w.path
  return {
    scheme := String.ofList (w.scheme.map Char.toLower)
    user := String.ofList (Percent.encode Percent.user w.user)
    host := String.ofList host
    service
    path := String.ofList (Percent.encode Percent.path path)
    query := w.query.map fun q => String.ofList (Percent.encode Percent.query q)
    fragment := w.fragment.map fun f => String.ofList (Percent.encode Percent.fragment f) }

/-- The address that a text denotes. A control character is in none. -/
def ofText? (text : String) : Option Address :=
  if maxLength < text.length || text.toList.any isControl then none
  else (Written.ofList text.toList).usual?

/-! ## Use -/

/-- What is between two slashes in front and the path. -/
def authority (a : Address) : String :=
  (if a.user = "" then "" else a.user ++ "@") ++ a.host
    ++ (match a.service with
      | none => ""
      | some n => s!":{n}")

def text (a : Address) : String :=
  (if a.scheme = "" then "" else a.scheme ++ ":")
    ++ (if a.authority = "" then "" else "//" ++ a.authority) ++ a.path
    ++ (match a.query with
      | none => ""
      | some q => "?" ++ q)
    ++ (match a.fragment with
      | none => ""
      | some f => "#" ++ f)

/-- Whether an address says where it is found. -/
def isAbsolute (a : Address) : Bool :=
  a.scheme ≠ "" && a.host ≠ ""

/-- What is asked for at the host: the path and the query. -/
def target (a : Address) : String :=
  (if a.path = "" then "/" else a.path)
    ++ (match a.query with
      | none => ""
      | some q => "?" ++ q)

/-- The path and the query alone, below the root. -/
def rooted (a : Address) : Address where
  path := String.ofList ('/' :: a.path.toList.dropWhile (· = '/'))
  query := a.query

end Address

end PoolLedger
