import PoolLedger.Event.Rule

/-!
# Finding sub-events

`Rule.find` goes through a list of attributes from left to right. Where the items of the rule fit,
it takes out a match and goes on behind it; elsewhere it goes on with the next attribute. Matches
are therefore disjoint and in order.
-/

namespace PoolLedger.Rule

/-- Whether the items fit the first attributes, one by one. -/
def fits : List RuleItem → List Attribute → Bool
  | [], _ => true
  | _ :: _, [] => false
  | i :: items, a :: attrs => i.accepts a && fits items attrs

/-- Whether an attribute opens the next sub-event. -/
def bounds (r : Rule) (a : Attribute) : Bool :=
  match r.boundary with
  | none | some "" => false
  | some key => a.key == key

/-- The number of attributes that a match at the start of the list takes in. -/
def extent (r : Rule) (attrs : List Attribute) : Nat :=
  let n := r.items.length
  match r.boundary with
  | none | some "" => n
  | some _ => n + ((attrs.drop n).takeWhile fun a => !r.bounds a).length

/-- The matches behind the first `skip` attributes. -/
def scan (r : Rule) : Nat → List Attribute → List (List Attribute)
  | _, [] => []
  | skip + 1, _ :: rest => scan r skip rest
  | 0, a :: rest =>
    if fits r.items (a :: rest) then
      let n := r.extent (a :: rest)
      (a :: rest).take n :: scan r (n - 1) rest
    else scan r 0 rest

def find (r : Rule) (attrs : List Attribute) : List (List Attribute) :=
  r.scan 0 attrs

/-- The matches in the entries of the rule's type, entry by entry. -/
def findIn (r : Rule) (entries : List Entry) : List (List Attribute) :=
  (entries.filter (·.kind == r.kind)).flatMap fun e => r.find e.attributes

end PoolLedger.Rule
