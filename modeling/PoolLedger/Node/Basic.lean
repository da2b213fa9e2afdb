import PoolLedger.Address.Basic
import PoolLedger.Error
import PoolLedger.Json.Reader
import PoolLedger.Json.Writer
import PoolLedger.Text.Encoding

/-!
# Nodes

A node answers requests for paths below some address, each possibly about the state at some height.
It is a function of its own state (`Node`), so that anything may happen between two requests.
`NodeError` lists why an answer is of no use.
-/

namespace PoolLedger

/-- A question to a node. -/
structure Request where
  address : Address
  /-- The height at which the state is asked for. -/
  height : Option Int := none
deriving DecidableEq, Repr

/-- What comes back. -/
inductive Reply where
  | response (status : Int) (body : String)
  /-- No connection was made. -/
  | failure
deriving DecidableEq, Repr

/-- Something that answers requests and may change with each. -/
abbrev Node (σ : Type) := Request → σ → Reply × σ

/-- Why a node's answer is of no use. -/
inductive NodeError where
  /-- The node is overloaded or out of order. -/
  | unavailable (status : Int) (path : String)
  /-- The node refuses the request. -/
  | refused (status : Int) (path : String) (detail : Text)
  /-- All attempts failed; the cause is that of the last. -/
  | exhausted (last : NodeError)
  /-- A pool does not have two assets. -/
  | malformedPool (contract shown : String)
  /-- There is no block at a height. -/
  | noBlock (height : String)
  | connection
  /-- What should be an address is none. -/
  | invalidAddress
  /-- An address does not say where it is found. -/
  | notAbsolute (address : String)
  /-- A body is no text in its encoding. -/
  | undecodable
  | notJson
  /-- Too many arrays and objects of a body lie inside each other. -/
  | tooDeep
  | numeral (cause : Numeral.TooLong)
  /-- A text that should be an integer is none. -/
  | notInteger (shown : String)
  /-- A number that should be an integer is none. -/
  | undefinedNumber
  | infiniteNumber
  /-- Something that should have members is no object. -/
  | notObject
  /-- A value is of a kind that the operation does not have. -/
  | wrongKind
  | absentMember (shown : String)
  /-- A value does not fit the model of a transaction. -/
  | invalidModel
deriving DecidableEq, Repr

namespace NodeError

def message : NodeError → Text
  | unavailable status path => s!"LCD error ({status}) for {path}"
  | refused status path detail =>
    (Text.ofString s!"LCD request failed ({status}) for {path}: ").append detail
  | malformedPool contract shown => s!"Unexpected pool response for {contract}: {shown}"
  | noBlock height => s!"no block {height}"
  | numeral cause => cause.message
  | notInteger shown => s!"invalid literal for int() with base 10: {shown}"
  | undefinedNumber => "cannot convert float NaN to integer"
  | infiniteNumber => "cannot convert float infinity to integer"
  | absentMember shown => shown
  | notAbsolute address => s!"unknown url type: {Text.quoted address}"
  | exhausted last => last.message
  | _ => ""

/-- Whether the request is sent again. -/
def isRetried : NodeError → Bool
  | unavailable _ _ | refused _ _ _ => true
  | _ => false

end NodeError

/-- Whether a status says that the node cannot answer now. -/
def isUnavailable (status : Int) : Bool :=
  status = 429 || 500 ≤ status

def readBody (body : String) : Except NodeError Json :=
  match Text.ofBody? body with
  | none => .error .undecodable
  | some text => (Json.parse text).mapError fun
    | .malformed => .notJson
    | .numeral cause => .numeral cause
    | .tooDeep => .tooDeep

/-- Why a request was refused, according to the body. -/
def refusal : Json → Except NodeError Text
  | .obj ms => .ok ((Members.get? ms "message").getD (.obj ms)).inText
  | _ => .error .notObject

/-- The value that a reply holds. The body counts only if the node is available. -/
def Reply.read (path : String) : Reply → Except NodeError Json
  | failure => .error .connection
  | response status body =>
    if isUnavailable status then .error (.unavailable status path)
    else do
      let data ← readBody body
      if status = 200 then return data
      else throw (.refused status path (← refusal data))

end PoolLedger
