import PoolLedger.Event.Basic

/-!
# The view of a sub-event by key

When no key occurs twice, the attributes of a sub-event are a mapping from keys to values. It is
kept as a list in the order of the attributes.
-/

namespace PoolLedger

/-- A key occurs twice. -/
structure DuplicateKey where
  key : String
deriving DecidableEq, Repr

/-- What is reported about a key that occurs twice. -/
def DuplicateKey.message (e : DuplicateKey) : String := s!"duplicated key({e.key})"

/-- The values of a sub-event by key. -/
abbrev Fields := List (String × String)

namespace Fields

def get? (fields : Fields) (key : String) : Option String :=
  fields.lookup key

def keys (fields : Fields) : List String :=
  fields.map (·.1)

def has (fields : Fields) (key : String) : Bool :=
  fields.keys.contains key

/-- The first key that was there before. -/
def repeatedKey? : List String → List Attribute → Option String
  | _, [] => none
  | seen, a :: rest => if seen.contains a.key then some a.key else repeatedKey? (a.key :: seen) rest

/-- The view of a list of attributes. -/
def ofAttributes (attrs : List Attribute) : Except DuplicateKey Fields :=
  match repeatedKey? [] attrs with
  | some key => .error { key }
  | none => .ok (attrs.map fun a => (a.key, a.value))

end Fields

end PoolLedger
