import PoolLedger.Event.Arrange
import PoolLedger.Reading.Strategy

/-!
# Reading the actions of pairs

The sub-event of a pair opens with the contract and the action. `PairReader.accept` looks up the
pair and checks the shape against the layout in force; `PairReader.read` then hands the fields
to the strategy in force.
-/

namespace PoolLedger

/-- What is in force for the pairs of a deployment. -/
structure PairReader where
  strategy : Strategy
  layout : Layout
  /-- The number of attributes that the chain adds to every event. -/
  added : Int := 0
deriving DecidableEq, Repr

/-- The attributes in the order in which a layout wants them. -/
def Layout.prepare (l : Layout) (attrs : List Attribute) : List Attribute :=
  if l.sorted then sortSegments l.contractKey attrs else attrs

/-- An action of a pair whose sub-event is in good shape. -/
structure PairAction where
  pair : Pair
  action : String
  fields : Fields
deriving DecidableEq, Repr

namespace PairReader

/-- The action of the sub-event with the given contract and action in front, if the
sub-event is in good shape. -/
def acceptAction (reader : PairReader) (registry : Registry) (contract action : String)
    (attrs : List Attribute) : Except ReadError PairAction := do
  match registry.get? contract with
  | none => throw (.unknownPair contract)
  | some pair =>
    match reader.layout.required? action with
    | none => throw (.unknownAction action reader.layout.actions)
    | some required =>
      let fields ← Fields.read .pairAction action attrs
      let expected ← reader.layout.expectedLength action fields.keys
      checkShape .pairAction action expected reader.added attrs
      checkKeys action required fields
      return { pair, action, fields }

/-- The action of a sub-event, if the sub-event is in good shape. -/
def accept (reader : PairReader) (registry : Registry) (attrs : List Attribute) :
    Except ReadError PairAction :=
  match reader.layout.prepare attrs with
  | contract :: action :: rest =>
    reader.acceptAction registry contract.value action.value (contract :: action :: rest)
  | short => .error (.tooFewAttributes short.length)

def read (reader : PairReader) (registry : Registry) (attrs : List Attribute) :
    Except ReadError Record := do
  let accepted ← reader.accept registry attrs
  reader.strategy.handle accepted.action accepted.fields accepted.pair

end PairReader

end PoolLedger
