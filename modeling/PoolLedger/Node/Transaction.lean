import PoolLedger.Node.Answer
import PoolLedger.Record

/-!
# Transactions as nodes deliver them

A node delivers the events of a transaction one by one. They are *flattened*: the attributes of all
events of one type are joined, and the types keep the order in which they first occur (`flatten`).
-/

namespace PoolLedger

/-! ## Flattening -/

/-- Adds the attributes of an event to those of its type. -/
def Entry.join (event : Entry) : List Entry → List Entry
  | [] => [event]
  | e :: rest =>
    if e.kind = event.kind then { e with attributes := e.attributes ++ event.attributes } :: rest
    else e :: event.join rest

/-- One entry for each type of event. -/
def flatten (events : List Entry) : List Entry :=
  events.foldl (fun entries event => event.join entries) []

/-! ## Reading -/

/-- An attribute; a value that counts as absent is empty. -/
def Attribute.ofJson (v : Json) : Except NodeError Attribute := do
  let ms ← v.members
  let key ← ((ms.get? "key").getD (.str "")).string
  let value ← ((ms.present? "value").getD (.str "")).string
  return { key, value }

/-- The type of an event, which is no text yet, and its attributes. -/
def eventParts (v : Json) : Except NodeError (Json × List Attribute) := do
  let ms ← v.members
  let kind := (ms.get? "type").getD (.str "")
  match kind with
  | .arr _ | .obj _ => throw .wrongKind
  | _ =>
    let attributes ← (← Json.elementsOf ms "attributes").mapM Attribute.ofJson
    return (kind, attributes)

/-- An event whose type is a text. -/
def eventOfParts : Json × List Attribute → Except NodeError Entry
  | (kind, attributes) => return { kind := ← kind.string, attributes }

def entriesOfEvents (events : List Json) : Except NodeError (List Entry) := do
  let parts ← events.mapM eventParts
  return flatten (← parts.mapM eventOfParts)

/-- The events of a transaction: those in its logs, or its own if it has no logs. -/
def eventsOf (tx : Members) : Except NodeError (List Json) :=
  match tx.present? "logs" with
  | some logs => do
    let parts ← (← logs.elements).mapM fun log => do Json.elementsOf (← log.members) "events"
    return parts.flatten
  | none => Json.elementsOf tx "events"

/-- The sender that the messages of a transaction name first. -/
def senderOf (entries : List Entry) : String :=
  match entries.find? (·.kind == EventType.message.name) with
  | some e => ((e.attributes.find? (·.key == "sender")).map (·.value)).getD ""
  | none => ""

/-- The time of a transaction, if it has one. -/
def timestampOf (tx : Members) : Except NodeError (Option Timestamp) :=
  match tx.present? "timestamp" with
  | none => .ok none
  | some v =>
    match Timestamp.ofJson? v with
    | some t => .ok (some t)
    | none => .error .invalidModel

def RawTx.ofMembers (tx : Members) : Except NodeError RawTx := do
  let entries ← entriesOfEvents (← eventsOf tx)
  let hash ← (← (Json.obj tx).member "txhash").string
  return { hash, timestamp := ← timestampOf tx, sender := senderOf entries, entries }

def succeeded (tx : Members) : Bool :=
  match (tx.get? "code").getD (.int 0) with
  | .int n => n = 0
  | .bool b => !b
  | .real x => x.isZero
  | _ => false

/-- The successful ones of some transactions. -/
def readTransactions : List Json → Except NodeError (List RawTx)
  | [] => .ok []
  | v :: rest => do
    let tx ← v.members
    if succeeded tx then
      let raw ← RawTx.ofMembers tx
      return raw :: (← readTransactions rest)
    else readTransactions rest

end PoolLedger
