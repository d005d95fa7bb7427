import ExtensionLint.Numeric.Binary64
/-!
The shortest decimal text that reads back. Around a number lies the interval of reals that round to
it; the coarsest decimal grid with a point in that interval gives the fewest digits, and of two such
points the nearer one is taken. Everything is compared exactly, as quotients of natural numbers.
-/

namespace ExtensionLint.Binary64

/-- The digits of a decimal and the power of ten they are multiplied by. -/
structure Digits where
  digits : Nat
  exponent : Int
  deriving DecidableEq, Repr

/-- The interval of the reals that round to a number, over a common denominator: lower end,
the number itself, upper end. -/
structure Interval where
  low : Nat
  mid : Nat
  high : Nat
  den : Nat
  closed : Bool
  deriving DecidableEq, Repr

/-- The interval around a positive number. Below a power of two the next number is half as far. -/
def interval (significand : Nat) (exponent : Int) : Interval :=
  let narrow := significand = normalBound && leastExponent < exponent
  let low := 4 * significand - (if narrow then 1 else 2)
  let (num, den) := ratio 1 (exponent - 2)
  ⟨low * num, 4 * significand * num, (4 * significand + 2) * num, den, significand % 2 = 0⟩

/-- Whether digits on the grid of a power of ten lie in an interval. The power is given as a
numerator and a denominator. -/
def Interval.holds (i : Interval) (digits num den : Nat) : Bool :=
  let x := digits * num * i.den
  if i.closed then i.low * den ≤ x && x ≤ i.high * den
  else i.low * den < x && x < i.high * den

/-- The point of a decimal grid in an interval, the nearer one if there are two. -/
def Interval.pick? (i : Interval) (exponent : Int) : Option Digits :=
  let num := Nat.pow 10 exponent.toNat
  let den := Nat.pow 10 (-exponent).toNat
  let below := i.mid * den / (i.den * num)
  let gapBelow := i.mid * den - below * num * i.den
  let gapAbove := (below + 1) * num * i.den - i.mid * den
  match i.holds below num den, i.holds (below + 1) num den with
  | true, true =>
      if gapBelow < gapAbove || (gapBelow = gapAbove && below % 2 = 0) then
        some ⟨below, exponent⟩
      else some ⟨below + 1, exponent⟩
  | true, false => some ⟨below, exponent⟩
  | false, true => some ⟨below + 1, exponent⟩
  | false, false => none

/-- Tries one grid after the other, each ten times finer, at most so many. -/
def Interval.search (i : Interval) : Nat → Int → Digits
  | 0, exponent => ⟨0, exponent⟩
  | tries + 1, exponent => match i.pick? exponent with
    | some d => d
    | none => i.search tries (exponent - 1)

/-- A power of ten above a positive number, at most three orders of magnitude. -/
def orderAbove (significand : Nat) (exponent : Int) : Int :=
  ((Nat.log2 significand : Int) + exponent) * 1233 / 4096 + 2

/-- The fewest digits that read back as a positive number. Seventeen digits always do. -/
def shortest (significand : Nat) (exponent : Int) : Digits :=
  (interval significand exponent).search 24 (orderAbove significand exponent)

/-- How decimal text is laid out. -/
structure Layout where
  /-- The least order of magnitude written with a point in place. -/
  leastPlain : Int
  /-- The first order of magnitude written with an exponent again. -/
  plainBound : Int

/-- Text of digits with the point in place and at least one digit after it. -/
def plain (digits : String) (exponent : Int) : String :=
  let shown := digits.toList
  let whole : Int := shown.length + exponent
  if 0 ≤ exponent then digits ++ String.ofList (List.replicate exponent.toNat '0') ++ ".0"
  else if whole ≤ 0 then
    "0." ++ String.ofList (List.replicate (-whole).toNat '0') ++ digits
  else
    String.ofList (shown.take whole.toNat) ++ "." ++ String.ofList (shown.drop whole.toNat)

/-- Text of digits with a power of ten, whose sign is always written. -/
def scientific (digits : String) (exponent : Int) : String :=
  let order : Int := (digits.length : Int) - 1 + exponent
  let mantissa := match digits.toList with
    | [] => ""
    | [d] => String.ofList [d]
    | d :: rest => String.ofList (d :: '.' :: rest)
  let sign := if order < 0 then "-" else "+"
  mantissa ++ "e" ++ sign ++ toString order.natAbs

/-- The shortest text of a number in a layout. -/
def text (layout : Layout) : Binary64 → String
  | .nan => "NaN"
  | .infinite negative => if negative then "-inf" else "inf"
  | .finite negative m e =>
      let sign := if negative then "-" else ""
      if m = 0 then sign ++ "0.0"
      else
        let d := shortest m e
        let digits := toString d.digits
        let order : Int := (digits.length : Int) - 1 + d.exponent
        if layout.leastPlain ≤ order && order < layout.plainBound then
          sign ++ plain digits d.exponent
        else sign ++ scientific digits d.exponent

/-- JSON text has the point in place from a hundred-thousandth up to sixteen digits. -/
def jsonLayout : Layout := ⟨-5, 16⟩

def jsonText (x : Binary64) : String := text jsonLayout x

end ExtensionLint.Binary64
