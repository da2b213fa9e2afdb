import PoolLedger.Node.Basic
import PoolLedger.Numeral.Text

/-!
# Taking answers apart

The answers of nodes are JSON of no fixed shape. A member that is null, false, zero or empty counts
as absent (`Members.present?`).
-/

namespace PoolLedger

/-- A member that counts as present. -/
def Members.present? (ms : Members) (key : Text) : Option Json :=
  (ms.get? key).filter Json.isTruthy

namespace Json

def members : Json → Except NodeError Members
  | obj ms => .ok ms
  | _ => .error .notObject

/-- The items of a list; those of an object are its keys, those of a text its characters. -/
def elements : Json → Except NodeError (List Json)
  | arr l => .ok l
  | obj ms => .ok (ms.map fun m => str m.1)
  | str s => .ok (s.points.map fun p => str ⟨[p]⟩)
  | _ => .error .wrongKind

/-- The items of a member; there are none if it counts as absent. -/
def elementsOf (ms : Members) (key : Text) : Except NodeError (List Json) :=
  match ms.present? key with
  | some v => v.elements
  | none => .ok []

/-- The value of a member that an object must have. -/
def member (v : Json) (key : Text) : Except NodeError Json :=
  match v with
  | obj ms =>
    match Members.get? ms key with
    | some w => .ok w
    | none => .error (.absentMember (Text.quoted key))
  | _ => .error .wrongKind

/-- The text without halves that a value of the model is. -/
def string : Json → Except NodeError String
  | str s =>
    match s.toString? with
    | some s => .ok s
    | none => .error .invalidModel
  | _ => .error .invalidModel

/-- The text that a value of the model is made into. -/
def plain (v : Json) : Except NodeError String :=
  string (str v.inText)

/-! ## Integers -/

/-- The longest part of a text that a message shows of it. -/
def maxShown : Nat := 200

def integerOfText (text : Text) : Except NodeError Int :=
  (Numeral.ofText text).mapError fun
    | .malformed => .notInteger (String.ofList ((Text.quoted text).toList.take maxShown))
    | .tooLong cause => .numeral cause

/-- The integer that a value stands for; a number is cut toward zero. -/
def integer : Json → Except NodeError Int
  | int n => .ok n
  | bool b => .ok (if b then 1 else 0)
  | str s => integerOfText s
  | real x =>
    match x with
    | .undefined => .error .undefinedNumber
    | .infinite _ => .error .infiniteNumber
    | x => .ok (x.truncate?.getD 0)
  | _ => .error .wrongKind

end Json

end PoolLedger
