import PoolLedger.Reading.Shape
import PoolLedger.Record

/-!
# Creations and first provisions

The factory announces a pair in five attributes that are told apart by their places. The first
provision of a pair mints share tokens to the pair itself.
-/

namespace PoolLedger

/-- The two assets of a new pair: `first-second`, neither empty. -/
def assetNames? (text : String) : Option (String × String) :=
  match (text.toList.splitOn '-').map String.ofList with
  | [a, b] => if a = "" || b = "" then none else some (a, b)
  | _ => none

def readCreation (added : Int) (attrs : List Attribute) : Except ReadError Record := do
  checkShape .creation RecordKind.creation.name 5 added attrs
  let names ← attributeAt attrs 2
  match assetNames? names.value with
  | none => throw (.malformedPair names.value)
  | some (first, second) =>
    let contract ← attributeAt attrs 3
    let share ← attributeAt attrs 4
    return {
      kind := .creation
      contract := contract.value
      legs := { first := { addr := first }, second := { addr := second } }
      share := share.value }

def Record.createdPair (r : Record) : Pair where
  contract := r.contract
  share := r.share
  first := r.legs.first.addr
  second := r.legs.second.addr

def readFirstProvide (added : Int) (attrs : List Attribute) : Except ReadError Record := do
  checkShape .firstProvide RecordKind.firstProvide.name 4 added attrs
  let fields ← Fields.read .firstProvide RecordKind.firstProvide.name attrs
  return {
    kind := .firstProvide
    contract := ← fields.value "to"
    share := ← fields.value contractKey
    shareAmount := ← fields.value "amount" }

end PoolLedger
