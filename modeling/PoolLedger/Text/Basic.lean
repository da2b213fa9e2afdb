/-!
# Texts of points

A `String` holds characters. A text that is written down in 16-bit units or in escapes may also hold
*halves*: surrogates that stand without their other half. `Text` allows both, and `Text.toString?`
is the string of a text without halves.
-/

namespace PoolLedger

/-- A character, or half of a surrogate pair that stands without its other half. -/
inductive Point where
  | char (value : Char)
  | half (index : Fin 2048)
deriving DecidableEq, Repr, Inhabited

namespace Point

def firstHalf : Nat := 0xD800

def code : Point → Nat
  | char c => c.toNat
  | half i => firstHalf + i

def ofCode (n : Nat) : Point :=
  if h : firstHalf ≤ n ∧ n < firstHalf + 2048 then half ⟨n - firstHalf, by omega⟩
  else char (Char.ofNat n)

/-- The point of two units, if they are the halves of a pair in their order. -/
def ofPair? (high low : Nat) : Option Point :=
  if 0xD800 ≤ high && high < 0xDC00 && 0xDC00 ≤ low && low < 0xE000 then
    some (char (Char.ofNat (0x10000 + (high - 0xD800) * 0x400 + (low - 0xDC00))))
  else none

/-- The character of a point that is no half. -/
def char? : Point → Option Char
  | char c => some c
  | half _ => none

def isDigit : Point → Bool
  | char c => c.isDigit
  | half _ => false

end Point

/-- A text that may hold halves. -/
structure Text where
  points : List Point := []
deriving DecidableEq, Repr, Inhabited

namespace Text

def ofString (s : String) : Text :=
  ⟨s.toList.map .char⟩

instance : Coe String Text := ⟨ofString⟩

def toString? (t : Text) : Option String :=
  (t.points.mapM Point.char?).map String.ofList

theorem mapM_char? (l : List Char) : (l.map Point.char).mapM Point.char? = some l := by
  induction l with
  | nil => rfl
  | cons c l ih => simp [List.mapM_cons, Point.char?, ih]

@[simp]
theorem toString?_ofString (s : String) : (ofString s).toString? = some s := by
  rw [toString?, ofString, mapM_char?, Option.map_some, String.ofList_toList]

theorem ofString_injective : Function.Injective ofString := fun s s' h => by
  have htext := congrArg toString? h
  rw [toString?_ofString, toString?_ofString] at htext
  exact Option.some.inj htext

def append (s t : Text) : Text :=
  ⟨s.points ++ t.points⟩

def isEmpty (t : Text) : Bool :=
  t.points.isEmpty

end Text

end PoolLedger
