/-!
ASCII letters and digits, and natural numbers written in decimal. Letter case outside ASCII is
left alone: manifest keywords, file extensions and directive names are ASCII words.
-/

namespace ExtensionLint.Text

def lower (s : List Char) : List Char := s.map Char.toLower

/-- The value of a hexadecimal digit of either case. -/
def hexValue? (c : Char) : Option Nat :=
  if c.isDigit then some (c.toNat - 48)
  else if 'a' ≤ c && c ≤ 'f' then some (c.toNat - 87)
  else if 'A' ≤ c && c ≤ 'F' then some (c.toNat - 55)
  else none

def isHexDigit (c : Char) : Bool := (hexValue? c).isSome

/-- The number that digits of a base denote, continuing from the digits already read. -/
def digitsValueFrom (base : Nat) : Nat → List Char → Nat
  | value, [] => value
  | value, c :: rest => digitsValueFrom base (value * base + (hexValue? c).getD 0) rest

def decimalValue (digits : List Char) : Nat := digitsValueFrom 10 0 digits

def hexadecimalValue (digits : List Char) : Nat := digitsValueFrom 16 0 digits

/-- Reads digits only, at least one, for a number up to a limit. -/
def digits? (limit : Nat) (s : List Char) : Option Nat :=
  if s.isEmpty || !s.all Char.isDigit then none
  else if decimalValue s ≤ limit then some (decimalValue s) else none

/-- Reads a natural number up to a limit. One leading plus sign and leading zeros are allowed. -/
def natural? (limit : Nat) : List Char → Option Nat
  | '+' :: digits => digits? limit digits
  | digits => digits? limit digits

def word32Max : Nat := Nat.pow 2 32 - 1

def word64Max : Nat := Nat.pow 2 64 - 1

/-- Whether two texts are the same up to the case of ASCII letters. -/
def sameLetters (a b : List Char) : Bool := lower a == lower b

end ExtensionLint.Text
