import PoolLedger.Binary64
import PoolLedger.Text.Basic

/-!
# JSON values

Objects are lists of members in the order in which their keys first occur. Integers and numbers
with a fraction or exponent are different things: the former are unbounded, the latter have the
precision of `Binary64`.
-/

namespace PoolLedger

/-- A JSON value. -/
inductive Json where
  | null
  | bool (value : Bool)
  | int (value : Int)
  | real (value : Binary64)
  | str (value : Text)
  | arr (items : List Json)
  | obj (members : List (Text × Json))
deriving Repr, Inhabited

abbrev Members := List (Text × Json)

namespace Members

def get? (ms : Members) (key : Text) : Option Json :=
  ms.lookup key

/-- Gives a member a value: in its place if the key is present, at the end if not. -/
def put : Members → Text → Json → Members
  | [], key, value => [(key, value)]
  | (k, v) :: rest, key, value =>
    if k = key then (k, value) :: rest else (k, v) :: put rest key value

end Members

namespace Json

/-! ## Equality -/

mutual

/-- Whether two values are equal: equal parts in the same order. -/
def beq : Json → Json → Bool
  | null, null => true
  | bool a, bool b => a == b
  | int a, int b => a == b
  | real a, real b => a == b
  | str a, str b => a == b
  | arr a, arr b => beqItems a b
  | obj a, obj b => beqMembers a b
  | _, _ => false

def beqItems : List Json → List Json → Bool
  | [], [] => true
  | a :: as, b :: bs => beq a b && beqItems as bs
  | _, _ => false

def beqMembers : Members → Members → Bool
  | [], [] => true
  | (k, a) :: as, (l, b) :: bs => k == l && beq a b && beqMembers as bs
  | _, _ => false

end

mutual

theorem beq_iff (a b : Json) : beq a b = true ↔ a = b := by
  cases a <;> cases b <;> simp [beq]
  case arr.arr l m => exact beqItems_iff l m
  case obj.obj l m => exact beqMembers_iff l m

theorem beqItems_iff (l m : List Json) : beqItems l m = true ↔ l = m := by
  match l, m with
  | [], [] => simp [beqItems]
  | [], _ :: _ => simp [beqItems]
  | _ :: _, [] => simp [beqItems]
  | a :: as, b :: bs => simp [beqItems, beq_iff a b, beqItems_iff as bs]

theorem beqMembers_iff (l m : Members) : beqMembers l m = true ↔ l = m := by
  match l, m with
  | [], [] => simp [beqMembers]
  | [], _ :: _ => simp [beqMembers]
  | _ :: _, [] => simp [beqMembers]
  | (k, a) :: as, (j, b) :: bs => simp [beqMembers, beq_iff a b, beqMembers_iff as bs, and_assoc]

end

instance : DecidableEq Json := fun a b => decidable_of_iff _ (beq_iff a b)

/-! ## Presence -/

/-- Whether the value counts as present: not null, false, zero, or empty. -/
def isTruthy : Json → Bool
  | null => false
  | bool b => b
  | int n => n ≠ 0
  | real x => !x.isZero
  | str s => !s.isEmpty
  | arr l => !l.isEmpty
  | obj ms => !ms.isEmpty

end Json

end PoolLedger
