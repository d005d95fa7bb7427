import ExtensionLint.Text.Ascii
import ExtensionLint.Text.Pieces
import ExtensionLint.Numeric.Binary64
/-!
Decimal numbers as text. Two readings are needed. A length in an image is read exactly and rounded
once. A number in JSON text keeps as many leading digits as fit a 64-bit word, and that word is then
multiplied or divided by a power of ten, which is a second rounding.
-/

namespace ExtensionLint.Decimal

/-- The number digits · 10 ^ exponent, rounded once. Exponents far outside the range of the format
are answered without computing the power. -/
def nearest (negative : Bool) (digits : Nat) (exponent : Int) : Binary64 :=
  let length : Int := (toString digits).length
  if digits = 0 then Binary64.zero negative
  else if 400 < exponent + length then .infinite negative
  else if exponent + length < -400 then Binary64.zero negative
  else if 0 ≤ exponent then Binary64.ofRatio negative (digits * Nat.pow 10 exponent.toNat) 1
  else Binary64.ofRatio negative digits (Nat.pow 10 (-exponent).toNat)

def splitSign : List Char → Bool × List Char
  | '-' :: rest => (true, rest)
  | '+' :: rest => (false, rest)
  | rest => (false, rest)

/-- Reads the part of a number after its digits: nothing, or an exponent. -/
def exponent? : List Char → Option Int
  | [] => some 0
  | c :: rest =>
      if c = 'e' || c = 'E' then
        let (negative, digits) := splitSign rest
        if digits.isEmpty || !digits.all Char.isDigit then none
        else
          let value : Int := Text.decimalValue digits
          some (if negative then -value else value)
      else none

/-- Reads digits with an optional point, at least one digit in all, and an optional exponent. -/
def magnitude? (negative : Bool) (s : List Char) : Option Binary64 :=
  let whole := s.takeWhile Char.isDigit
  let rest := s.dropWhile Char.isDigit
  let (fraction, rest) := match rest with
    | '.' :: rest => (rest.takeWhile Char.isDigit, rest.dropWhile Char.isDigit)
    | rest => ([], rest)
  if whole.isEmpty && fraction.isEmpty then none
  else (exponent? rest).map fun e =>
    nearest negative (Text.decimalValue (whole ++ fraction)) (e - fraction.length)

/-- Reads a number of any form: decimal, with an exponent, infinite or not a number. -/
def read? (s : List Char) : Option Binary64 :=
  let (negative, rest) := splitSign s
  let word := Text.lower rest
  if word = "inf".toList || word = "infinity".toList then some (.infinite negative)
  else if word = "nan".toList then some .nan
  else magnitude? negative rest

/-- The powers of ten of the format, each rounded once. -/
def powerOfTen (n : Nat) : Binary64 := Binary64.ofNat (Nat.pow 10 n)

def mostPower : Nat := 308

/-- Divides by powers of ten until the whole exponent is used up or nothing is left. -/
def scaleDown (x : Binary64) (exponent : Nat) : Binary64 :=
  if exponent ≤ mostPower then x.div (powerOfTen exponent)
  else if x.isZero then x
  else scaleDown (x.div (powerOfTen mostPower)) (exponent - mostPower)
  termination_by exponent
  decreasing_by simp [mostPower] at *; omega

/-- A word times a power of ten, or nothing when the result is not finite. -/
def scale? (word : Nat) (exponent : Int) : Option Binary64 :=
  let x := Binary64.ofNat word
  if exponent < 0 then some (scaleDown x (-exponent).toNat)
  else if exponent ≤ mostPower then
    let product := x.mul (powerOfTen exponent.toNat)
    if product.isFinite then some product else none
  else if x.isZero then some x else none

/-- Adds a digit to a word if the result still fits. -/
def pushDigit? (word : Nat) (c : Char) : Option Nat :=
  let next := word * 10 + (c.toNat - 48)
  if next ≤ Text.word64Max then some next else none

/-- Takes the digits before the point into a word. Digits that no longer fit are only counted. -/
def takeWhole : Nat → List Char → Nat × Nat
  | word, [] => (word, 0)
  | word, c :: rest => match pushDigit? word c with
    | some next => takeWhole next rest
    | none => (word, (c :: rest).length)

/-- Takes the digits after the point into a word, counting those taken. Digits that no longer fit
are dropped. -/
def takeFraction : Nat → List Char → Nat × Nat
  | word, [] => (word, 0)
  | word, c :: rest => match pushDigit? word c with
    | some next =>
        let (word, taken) := takeFraction next rest
        (word, taken + 1)
    | none => (word, 0)

/-- The exponent of a number in JSON text. -/
structure Exponent where
  mark : Char
  sign : Option Char
  digits : List Char
  deriving DecidableEq, Repr

namespace Exponent

def written (e : Exponent) : List Char := e.mark :: (e.sign.toList ++ e.digits)

def value (e : Exponent) : Int :=
  if e.sign = some '-' then -(Text.decimalValue e.digits : Int) else Text.decimalValue e.digits

end Exponent

/-- The parts of a number in JSON text. -/
structure Literal where
  negative : Bool
  whole : List Char
  /-- The digits after the point, if there is one. -/
  fraction : Option (List Char)
  exponent : Option Exponent
  deriving DecidableEq, Repr

def writtenFraction : Option (List Char) → List Char
  | some digits => '.' :: digits
  | none => []

def writtenExponent : Option Exponent → List Char
  | some e => e.written
  | none => []

def Literal.written (n : Literal) : List Char :=
  n.whole ++ writtenFraction n.fraction ++ writtenExponent n.exponent

/-- The nearest binary number that the two-step reading gives a literal, or nothing when it is out
of range. -/
def Literal.binary? (n : Literal) : Option Binary64 :=
  let (word, dropped) := takeWhole 0 n.whole
  let (word, taken) := takeFraction word (n.fraction.getD [])
  let shift : Int := (dropped : Int) - taken
  let exponent : Int := (n.exponent.map Exponent.value).getD 0
  (scale? word (shift + exponent)).map fun x => if n.negative then x.neg else x

end ExtensionLint.Decimal
