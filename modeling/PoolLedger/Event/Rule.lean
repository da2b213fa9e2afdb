import PoolLedger.Event.Basic

/-!
# Rules

A rule describes a sub-event by the keys of its first attributes, in order, with a filter on each
value (`Rule.items`). A rule with a *boundary* key takes in everything up to the next attribute of
that key, one without takes in its items only.
-/

namespace PoolLedger

/-- A condition on a value. -/
inductive Filter where
  | any
  | equals (value : String)
  | among (values : List String)
  /-- Any other condition, as a test. -/
  | satisfying (test : String → Bool)

def Filter.accepts : Filter → String → Bool
  | any, _ => true
  | equals v, w => w == v
  | among vs, w => vs.contains w
  | satisfying test, w => test w

/-- Why a rule is refused. -/
inductive RuleError where
  | emptyKey
  | noItems
  /-- The filter on the key is none of the forms of `Filter`. -/
  | malformedFilter (key : String)
  | noFactory
deriving DecidableEq, Repr

def RuleError.message : RuleError → String
  | emptyKey => "rule item key cannot be empty"
  | noItems => "rule must have at least one item"
  | malformedFilter key => s!"rule item({key}) filter must be None, str or callable"
  | noFactory => "no factory address"

/-- One position of a rule. -/
structure RuleItem where
  key : String
  filter : Filter := .any

namespace RuleItem

def accepts (i : RuleItem) (a : Attribute) : Bool :=
  a.key == i.key && i.filter.accepts a.value

/-- A position with the given key; no filter stands for one of no known form. -/
def make (key : String) (filter : Option Filter) : Except RuleError RuleItem :=
  if key = "" then .error .emptyKey
  else
    match filter with
    | none => .error (.malformedFilter key)
    | some f => .ok { key, filter := f }

end RuleItem

/-- A description of sub-events in entries of one type. -/
structure Rule where
  kind : String
  items : List RuleItem
  /-- The key that opens the next sub-event; the empty one opens none. -/
  boundary : Option String := none
  items_ne : items ≠ [] := by simp

namespace Rule

def make (kind : String) (items : List RuleItem) (boundary : Option String) :
    Except RuleError Rule :=
  if h : items = [] then .error .noItems else .ok { kind, items, boundary, items_ne := h }

def keys (r : Rule) : List String :=
  r.items.map (·.key)

/-- The rule, unless one of its keys is empty. -/
def checked (r : Rule) : Except RuleError Rule :=
  if r.keys.contains "" then .error .emptyKey else .ok r

theorem checked_eq_ok (r : Rule) : r.checked = .ok r ↔ "" ∉ r.keys := by
  by_cases h : "" ∈ r.keys <;> simp [checked, h]

instance (r : Rule) : Decidable (r.checked = .ok r) :=
  decidable_of_iff _ r.checked_eq_ok.symm

end Rule

/-! ## Names in contract events -/

/-- The key that names the contract of a sub-event. -/
def contractKey : String := "_contract_address"

/-- The key that names the contract on the first columbus chain. -/
def plainContractKey : String := "contract_address"

/-- The key that names the action of a sub-event. -/
def actionKey : String := "action"

namespace Action

/-- One asset of a pair is exchanged for the other. -/
def swap : String := "swap"

/-- Both assets are put into a pair. -/
def provide : String := "provide_liquidity"

def withdraw : String := "withdraw_liquidity"

/-- A token is moved by its owner. -/
def transfer : String := "transfer"

/-- A token is moved by someone the owner allows to. -/
def transferFrom : String := "transfer_from"

def mint : String := "mint"

def createPair : String := "create_pair"

def ofPair : List String := [swap, provide, withdraw]

def ofTransfer : List String := [transfer, transferFrom]

end Action

/-- The keys of a bank transfer in the order in which most chains log them. -/
def transferKeys : List String := ["recipient", "sender", "amount"]

/-- The keys of a bank transfer in alphabetical order. -/
def sortedTransferKeys : List String := ["amount", "recipient", "sender"]

/-! ## The rules of the five kinds of sub-event -/

namespace Rule

def creation (factory kind key : String) : Rule where
  kind
  items := [{ key, filter := .equals factory },
    { key := actionKey, filter := .equals Action.createPair }, { key := "pair" }, { key },
    { key := "liquidity_token_addr" }]

def pairAction (pairs : List String) (kind key : String) : Rule where
  kind
  items := [{ key, filter := .among pairs }, { key := actionKey, filter := .among Action.ofPair }]
  boundary := some key

def tokenTransfer (kind key : String) : Rule where
  kind
  items := [{ key }, { key := actionKey, filter := .among Action.ofTransfer }]
  boundary := some key

/-- The chain moves coins; the keys come in the given order. -/
def bankTransfer (keys : List String) (keys_ne : keys ≠ [] := by decide) : Rule where
  kind := EventType.transfer.name
  items := keys.map fun key => { key }
  items_ne := by simpa using keys_ne

/-- A share token is minted to one of the given pairs. -/
def firstProvide (pairs : List String) : Rule where
  kind := EventType.wasm.name
  items := [{ key := contractKey }, { key := actionKey, filter := .equals Action.mint },
    { key := "amount" }, { key := "to", filter := .among pairs }]

/-! The same rules for names that may be empty. -/

/-- The rule of creations by a factory that may be unknown. -/
def creation? (factory : Option String) (kind key : String) : Except RuleError Rule :=
  match factory with
  | none | some "" => .error .noFactory
  | some address => (creation address kind key).checked

/-- The rule of bank transfers for any list of keys. -/
def bankTransfer? (keys : List String) : Except RuleError Rule :=
  if keys.contains "" then .error .emptyKey
  else if h : keys = [] then .error .noItems
  else .ok (bankTransfer keys h)

end Rule

end PoolLedger
