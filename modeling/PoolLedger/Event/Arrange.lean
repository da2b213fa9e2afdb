import PoolLedger.Event.Basic
import PoolLedger.Sorting

/-!
# Putting attributes in order

Some chains log the attributes of an event in any order. `arrange` restores a known order chunk by
chunk, `sortSegments` sorts each sub-event by key.
-/

namespace PoolLedger

/-- There are no keys to arrange by. -/
structure NoKeys where
deriving DecidableEq, Repr

def NoKeys.message (_ : NoKeys) : String := "keys must be provided"

/-! ## Chunks in a given order -/

/-- The last place of a key among the keys. -/
def lastPlace (keys : List String) (key : String) : Nat :=
  keys.length - (keys.reverse.idxOf key)

/-- The attributes of one chunk in the order of the keys. -/
def arrangeChunk (keys : List String) (chunk : List Attribute) : List Attribute :=
  sortBy (fun a b => lastPlace keys a.key ≤ lastPlace keys b.key) chunk

/-- Puts the chunks of `n` attributes in order; what is left at the end stays as it is. The fuel
bounds the number of chunks. -/
def arrangeChunks (keys : List String) : Nat → List Attribute → List Attribute
  | 0, attrs => attrs
  | fuel + 1, attrs =>
    let n := keys.length
    if n ≤ attrs.length then
      arrangeChunk keys (attrs.take n) ++ arrangeChunks keys fuel (attrs.drop n)
    else attrs

/-- The attributes with one of the keys, each chunk of as many attributes as there are keys in
the order of the keys. -/
def arrange (keys : List String) (attrs : List Attribute) : List Attribute :=
  let kept := attrs.filter fun a => keys.contains a.key
  arrangeChunks keys kept.length kept

/-- The arranged attributes, if there are keys to arrange by. -/
def arranged (keys : List String) (attrs : List Attribute) : Except NoKeys (List Attribute) :=
  if keys.isEmpty then .error {} else .ok (arrange keys attrs)

/-! ## Sorted segments -/

/-- The attribute that some chains add at the end of every event. -/
def indexKey : String := "msg_index"

/-- Whether one attribute may stand before another in a sorted segment: by key, the index last. -/
def sortedBefore (a b : Attribute) : Bool :=
  if a.key == indexKey then b.key == indexKey
  else b.key == indexKey || a.key ≤ b.key

/-- The segments of a list of attributes: each but the first opens with the splitter. -/
def segments (splitter : String) (attrs : List Attribute) : List (List Attribute) :=
  attrs.splitBy fun _ b => b.key != splitter

def sortSegments (splitter : String) (attrs : List Attribute) : List Attribute :=
  (segments splitter attrs).flatMap (sortBy sortedBefore)

end PoolLedger
