/-!
# Percent encoding

In an address a visible ASCII character stands for itself unless the part that it is in reserves it.
Every other character is written by its bytes, each after a percent sign. The percent sign itself is
never reserved, so that what is encoded already stays as it is.
-/

namespace PoolLedger.Percent

/-- A byte after a percent sign, in upper case hexadecimal digits. -/
def encodedByte (b : UInt8) : List Char :=
  ['%', (Nat.digitChar (b.toNat / 16)).toUpper, (Nat.digitChar (b.toNat % 16)).toUpper]

/-- Whether a character stands for itself where some are reserved. -/
def isPlain (reserved : List Char) (c : Char) : Bool :=
  '!' ≤ c && c ≤ '~' && !reserved.contains c

/-- A text in a part of an address that reserves some characters. -/
def encode (reserved : List Char) (s : List Char) : List Char :=
  s.flatMap fun c =>
    if isPlain reserved c then [c] else (String.utf8EncodeChar c).flatMap encodedByte

def query : List Char := ['"', '#', '<', '>']

def fragment : List Char := ['"', '<', '>', '\x60']

def path : List Char := query ++ ['?', '\x60', '\x7b', '\x7d']

def user : List Char := path ++ ['/', ';', '=', '@', '[', '\\', ']', '^', '|']

def host : List Char := ['#', '/', ':', '<', '>', '?', '@', '[', ']', '^']

end PoolLedger.Percent
