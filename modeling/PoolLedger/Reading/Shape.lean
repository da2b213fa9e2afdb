import PoolLedger.Error
import PoolLedger.Event.Fields
import PoolLedger.Layout

/-!
# The shape of a sub-event

Before anything is read from a sub-event its shape is checked: the number of its attributes
(`checkShape`), that each has a value, that no key occurs twice (`Fields.read`), and that the keys
of its action are there (`checkKeys`).
-/

namespace PoolLedger

/-- Refuses a sub-event whose number of attributes is not `expected` plus the number that the chain
adds to every event, and one with an attribute without a value. -/
def checkShape (kind : SubEvent) (action : String) (expected : Nat) (added : Int)
    (attrs : List Attribute) : Except ReadError Unit :=
  if (attrs.length : Int) = expected + added then
    match attrs.find? (·.value == "") with
    | some a => .error (.emptyValue action kind a.key)
    | none => .ok ()
  else .error (.wrongLength action kind attrs.length (expected + added))

namespace Fields

/-- The view of a sub-event by key. -/
def read (kind : SubEvent) (action : String) (attrs : List Attribute) : Except ReadError Fields :=
  (ofAttributes attrs).mapError fun e => .duplicateKey action kind e.key

/-- The value of a key that is needed. -/
def value (fields : Fields) (key : String) : Except ReadError String :=
  match fields.get? key with
  | some v => .ok v
  | none => .error (.absentField key)

end Fields

/-- Refuses fields that lack a key of the action. -/
def checkKeys (action : String) (required : List String) (fields : Fields) :
    Except ReadError Unit :=
  match required.find? fun key => !fields.has key with
  | some key => .error (.missingKey action key)
  | none => .ok ()

def attributeAt (attrs : List Attribute) (i : Nat) : Except ReadError Attribute :=
  match attrs[i]? with
  | some a => .ok a
  | none => .error .absentPosition

end PoolLedger
