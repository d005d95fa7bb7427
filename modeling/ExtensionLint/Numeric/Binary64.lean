/-!
Binary floating point with 53 bits of precision. A finite number is a sign, a significand and a
power of two, always in the one form that the format itself gives it, so two numbers are the same
exactly when their fields are. Every operation takes the exact rational result and rounds it once,
to the nearest number, a tie going to the even significand.
-/

namespace ExtensionLint

/-- A number of the binary64 format. -/
inductive Binary64 where
  /-- The number ± significand · 2 ^ exponent. -/
  | finite (negative : Bool) (significand : Nat) (exponent : Int)
  | infinite (negative : Bool)
  | nan
  deriving DecidableEq, Repr, Inhabited

namespace Binary64

def leastExponent : Int := -1074

def mostExponent : Int := 971

/-- The first significand with more than 53 bits. -/
def significandBound : Nat := Nat.pow 2 53

/-- The smallest significand of a number that is not subnormal. -/
def normalBound : Nat := Nat.pow 2 52

def zero (negative : Bool) : Binary64 := .finite negative 0 leastExponent

/-- A quotient rounded to the nearest natural number, a tie going to the even one. -/
def roundHalfEven (num den : Nat) : Nat :=
  let q := num / den
  let r := num % den
  if 2 * r < den then q
  else if den < 2 * r then q + 1
  else if q % 2 = 0 then q else q + 1

/-- The largest power of two that is at most a positive quotient, as its exponent. -/
def floorLog2 (num den : Nat) : Int :=
  let estimate : Int := (Nat.log2 num : Int) - (Nat.log2 den : Int)
  let reached :=
    if 0 ≤ estimate then decide (den * Nat.pow 2 estimate.toNat ≤ num)
    else decide (den ≤ num * Nat.pow 2 (-estimate).toNat)
  if reached then estimate else estimate - 1

/-- The quotient of two natural numbers, rounded once. The denominator is positive. -/
def ofRatio (negative : Bool) (num den : Nat) : Binary64 :=
  if num = 0 then zero negative
  else
    let e := max (floorLog2 num den - 52) leastExponent
    let m :=
      if 0 ≤ e then roundHalfEven num (den * Nat.pow 2 e.toNat)
      else roundHalfEven (num * Nat.pow 2 (-e).toNat) den
    let (m, e) := if m = significandBound then (normalBound, e + 1) else (m, e)
    if mostExponent < e then .infinite negative else .finite negative m e

def ofNat (n : Nat) : Binary64 := ofRatio false n 1

/-- The magnitude of a finite number as a numerator and a denominator. -/
def ratio (significand : Nat) (exponent : Int) : Nat × Nat :=
  if 0 ≤ exponent then (significand * Nat.pow 2 exponent.toNat, 1)
  else (significand, Nat.pow 2 (-exponent).toNat)

def neg : Binary64 → Binary64
  | .finite negative m e => .finite (!negative) m e
  | .infinite negative => .infinite (!negative)
  | .nan => .nan

def isFinite : Binary64 → Bool
  | .finite .. => true
  | _ => false

def isZero : Binary64 → Bool
  | .finite _ m _ => m == 0
  | _ => false

/-- Whether a number is at least zero; both zeros are. -/
def isNonnegative : Binary64 → Bool
  | .finite negative m _ => !negative || m == 0
  | .infinite negative => !negative
  | .nan => false

def isIntegral : Binary64 → Bool
  | .finite _ m e =>
      let (num, den) := ratio m e
      num % den == 0
  | _ => false

def ltNat : Binary64 → Nat → Bool
  | .finite negative m e, n =>
      let (num, den) := ratio m e
      if negative then num != 0 || n != 0 else num < n * den
  | .infinite negative, _ => negative
  | .nan, _ => false

def gtNat : Binary64 → Nat → Bool
  | .finite negative m e, n =>
      let (num, den) := ratio m e
      !negative && n * den < num
  | .infinite negative, _ => !negative
  | .nan, _ => false

def mul : Binary64 → Binary64 → Binary64
  | .finite s m e, .finite s' m' e' =>
      let (num, den) := ratio m e
      let (num', den') := ratio m' e'
      ofRatio (s != s') (num * num') (den * den')
  | .nan, _ => .nan
  | _, .nan => .nan
  | .infinite s, .infinite s' => .infinite (s != s')
  | .infinite s, .finite s' m _ => if m = 0 then .nan else .infinite (s != s')
  | .finite s m _, .infinite s' => if m = 0 then .nan else .infinite (s != s')

def div : Binary64 → Binary64 → Binary64
  | .finite s m e, .finite s' m' e' =>
      if m' = 0 then (if m = 0 then .nan else .infinite (s != s'))
      else
        let (num, den) := ratio m e
        let (num', den') := ratio m' e'
        ofRatio (s != s') (num * den') (den * num')
  | .nan, _ => .nan
  | _, .nan => .nan
  | .infinite _, .infinite _ => .nan
  | .infinite s, .finite s' _ _ => .infinite (s != s')
  | .finite s _ _, .infinite s' => zero (s != s')

/-- The nearest natural number up to a limit, a half going up. Everything below zero and what is
not a number gives zero, and everything beyond the limit gives the limit. -/
def toNatRounded (limit : Nat) : Binary64 → Nat
  | .finite negative m e =>
      let (num, den) := ratio m e
      if negative then 0 else min limit ((2 * num + den) / (2 * den))
  | .infinite negative => if negative then 0 else limit
  | .nan => 0

end Binary64
end ExtensionLint
