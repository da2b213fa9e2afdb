/-!
# Blanks

The blanks are the white space characters of Unicode together with the four information separators
U+001C to U+001F. `strip` removes them from both ends of a text and leaves the inside alone; `trim`
removes white space only.
-/

namespace PoolLedger.Text

/-- The first and last code point of each run of blanks. -/
def blankRuns : List (Nat × Nat) :=
  [(0x9, 0xD), (0x1C, 0x20), (0x85, 0x85), (0xA0, 0xA0), (0x1680, 0x1680), (0x2000, 0x200A),
   (0x2028, 0x2029), (0x202F, 0x202F), (0x205F, 0x205F), (0x3000, 0x3000)]

def isBlank (c : Char) : Bool :=
  blankRuns.any fun run => run.1 ≤ c.toNat && c.toNat ≤ run.2

/-- Whether the character is white space: a blank, but no information separator. -/
def isWhiteSpace (c : Char) : Bool :=
  isBlank c && !(0x1C ≤ c.toNat && c.toNat ≤ 0x1F)

/-- The text without the characters of a class at its end. -/
def dropEnd (p : Char → Bool) (s : List Char) : List Char :=
  (s.reverse.dropWhile p).reverse

def strip (s : List Char) : List Char :=
  dropEnd isBlank (s.dropWhile isBlank)

/-- The text without the white space at either end. -/
def trim (s : List Char) : List Char :=
  dropEnd isWhiteSpace (s.dropWhile isWhiteSpace)

end PoolLedger.Text
