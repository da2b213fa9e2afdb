/-!
# Events

A transaction logs events: typed lists of attributes, in order. Several sub-events of one type stand
back to back in one entry, each opening with the attribute that names its contract.
-/

namespace PoolLedger

/-- A key with its value; the order of attributes within an event matters. -/
structure Attribute where
  key : String
  value : String := ""
deriving DecidableEq, Repr, Inhabited

/-- The attributes of all events of one type. -/
structure Entry where
  kind : String
  attributes : List Attribute := []
deriving DecidableEq, Repr, Inhabited

/-- The event types that chains log. -/
inductive EventType where
  | message
  | execute
  | wasm
  | transfer
  | instantiate
  | reply
  /-- Contract events of the first columbus chains. -/
  | fromContract
deriving DecidableEq, Repr

namespace EventType

def all : List EventType :=
  [message, execute, wasm, transfer, instantiate, reply, fromContract]

/-- The name under which a chain logs the type. -/
def name : EventType → String
  | message => "message"
  | execute => "execute"
  | wasm => "wasm"
  | transfer => "transfer"
  | instantiate => "instantiate"
  | reply => "reply"
  | fromContract => "from_contract"

def ofName? (s : String) : Option EventType :=
  all.find? fun t => t.name == s

end EventType

end PoolLedger
