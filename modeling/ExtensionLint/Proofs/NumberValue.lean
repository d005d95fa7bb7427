import ExtensionLint.Schema.Basic
import Mathlib.Algebra.Order.Field.Rat
import Mathlib.Data.Rat.Cast.Order
import Mathlib.Tactic.Linarith

/-!
The rational values of numbers. The checks of a schema look at a number by its numerator and its
denominator and never compute a quotient; here each of them is shown to be about the one rational
number that the written number is, so a bound or a type says the same of every way to write it.
-/

namespace ExtensionLint

namespace Binary64

/-- The rational number that a significand and a power of two make. -/
def magnitude (m : Nat) (e : Int) : ℚ := m * 2 ^ e

/-- The rational number that a finite number is. -/
def value? : Binary64 → Option ℚ
  | .finite negative m e => some (if negative then -magnitude m e else magnitude m e)
  | _ => none

theorem magnitude_nonneg (m : Nat) (e : Int) : 0 ≤ magnitude m e :=
  mul_nonneg (Nat.cast_nonneg m) (zpow_nonneg (by norm_num) e)

theorem ratio_snd_pos (m : Nat) (e : Int) : 0 < (ratio m e).2 := by
  unfold ratio
  split
  · exact Nat.one_pos
  · exact Nat.pow_pos (by decide)

/-- The magnitude is the quotient of the numerator and the denominator. -/
theorem ratio_fst (m : Nat) (e : Int) : ((ratio m e).1 : ℚ) = magnitude m e * (ratio m e).2 := by
  unfold ratio magnitude
  split
  · next he =>
      obtain ⟨k, rfl⟩ := Int.eq_ofNat_of_zero_le he
      simp
  · next he =>
      obtain ⟨k, rfl⟩ : ∃ k : Nat, e = -k := ⟨(-e).toNat, by omega⟩
      simp [zpow_neg]

theorem magnitude_lt_iff {m : Nat} {e : Int} {n : Nat} :
    magnitude m e < n ↔ (ratio m e).1 < n * (ratio m e).2 := by
  have hden : (0 : ℚ) < (ratio m e).2 := by exact_mod_cast ratio_snd_pos m e
  rw [← mul_lt_mul_iff_left₀ hden, ← ratio_fst]
  exact_mod_cast Iff.rfl

theorem lt_magnitude_iff {m : Nat} {e : Int} {n : Nat} :
    (n : ℚ) < magnitude m e ↔ n * (ratio m e).2 < (ratio m e).1 := by
  have hden : (0 : ℚ) < (ratio m e).2 := by exact_mod_cast ratio_snd_pos m e
  rw [← mul_lt_mul_iff_left₀ hden, ← ratio_fst]
  exact_mod_cast Iff.rfl

theorem magnitude_eq_intCast_iff {m : Nat} {e : Int} {z : Int} :
    magnitude m e = z ↔ ((ratio m e).1 : Int) = z * (ratio m e).2 := by
  have hden : ((ratio m e).2 : ℚ) ≠ 0 := by exact_mod_cast (ratio_snd_pos m e).ne'
  rw [← mul_left_inj' hden, ← ratio_fst]
  exact_mod_cast Iff.rfl

/-- A negative number is below every natural number, but zero is not below zero. -/
theorem neg_magnitude_lt_iff {m : Nat} {e : Int} {n : Nat} :
    -magnitude m e < n ↔ (ratio m e).1 ≠ 0 ∨ n ≠ 0 := by
  have hzero : magnitude m e = 0 ↔ (ratio m e).1 = 0 := by
    simpa using magnitude_eq_intCast_iff (m := m) (e := e) (z := 0)
  have hnonneg := magnitude_nonneg m e
  have hn : (0 : ℚ) ≤ n := n.cast_nonneg
  rw [neg_lt_iff_pos_add', (add_nonneg hnonneg hn).lt_iff_ne', ne_eq,
    add_eq_zero_iff_of_nonneg hnonneg hn, hzero, Nat.cast_eq_zero, not_and_or]

theorem neg_magnitude_le (m : Nat) (e : Int) (n : Nat) : -magnitude m e ≤ n :=
  (neg_nonpos.mpr (magnitude_nonneg m e)).trans n.cast_nonneg

theorem ltNat_iff {x : Binary64} {value : ℚ} {n : Nat} (hvalue : x.value? = some value) :
    x.ltNat n = true ↔ value < n := by
  cases x with
  | infinite _ => cases hvalue
  | nan => cases hvalue
  | finite negative m e =>
      obtain rfl := Option.some.inj hvalue
      cases negative with
      | false => simp [ltNat, magnitude_lt_iff]
      | true => simp [ltNat, neg_magnitude_lt_iff]

theorem gtNat_iff {x : Binary64} {value : ℚ} {n : Nat} (hvalue : x.value? = some value) :
    x.gtNat n = true ↔ n < value := by
  cases x with
  | infinite _ => cases hvalue
  | nan => cases hvalue
  | finite negative m e =>
      obtain rfl := Option.some.inj hvalue
      cases negative with
      | false => simp [gtNat, lt_magnitude_iff]
      | true => simpa [gtNat] using neg_magnitude_le m e n

theorem mod_ratio_eq_zero_iff (m : Nat) (e : Int) :
    (ratio m e).1 % (ratio m e).2 = 0 ↔ ∃ z : Int, magnitude m e = z := by
  rw [← Nat.dvd_iff_mod_eq_zero, ← Int.natCast_dvd_natCast, dvd_iff_exists_eq_mul_left]
  exact exists_congr fun z => magnitude_eq_intCast_iff.symm

/-- The numbers without a fraction are those whose value is an integer. -/
theorem isIntegral_iff {x : Binary64} :
    x.isIntegral = true ↔ ∃ z : Int, x.value? = some (z : ℚ) := by
  cases x with
  | infinite _ => simp [isIntegral, value?]
  | nan => simp [isIntegral, value?]
  | finite negative m e =>
      have hratio : (finite negative m e).isIntegral = true ↔ ∃ z : Int, magnitude m e = z := by
        simpa [isIntegral] using mod_ratio_eq_zero_iff m e
      rw [hratio]
      cases negative with
      | false => simp [value?]
      | true =>
          constructor
          · rintro ⟨z, hz⟩
            exact ⟨-z, by simp [value?, hz]⟩
          · rintro ⟨z, hz⟩
            exact ⟨-z, by simpa [value?, neg_eq_iff_eq_neg] using hz⟩

end Binary64

/-- The rational number that a number stands for, however it is written. -/
def Json.Number.value? : Json.Number → Option ℚ
  | .integer i => some i
  | .float x => x.value?

namespace Schema

variable {number : Json.Number} {value : ℚ} {bound : Nat}

theorem isBelow_iff (hvalue : number.value? = some value) :
    isBelow number bound = true ↔ value < bound := by
  cases number with
  | float x => exact Binary64.ltNat_iff hvalue
  | integer i =>
      obtain rfl := Option.some.inj hvalue
      simp only [isBelow, decide_eq_true_eq]
      exact_mod_cast Iff.rfl

theorem isAbove_iff (hvalue : number.value? = some value) :
    isAbove number bound = true ↔ bound < value := by
  cases number with
  | float x => exact Binary64.gtNat_iff hvalue
  | integer i =>
      obtain rfl := Option.some.inj hvalue
      simp only [isAbove, decide_eq_true_eq]
      exact_mod_cast Iff.rfl

/-- A number is of the type of integers when its value is one, also when it is written with a
fraction or an exponent. -/
theorem admits_integer_iff :
    Kind.integer.admits (.number number) = true ↔ ∃ z : Int, number.value? = some (z : ℚ) := by
  cases number with
  | float x => exact Binary64.isIntegral_iff
  | integer i => simp [Kind.admits, Json.Number.value?]

/-- The integers from a bound on are the numbers whose value is such a natural number. -/
theorem admits_integer_not_isBelow_iff {least : Nat} :
    Kind.integer.admits (.number number) = true ∧ ¬isBelow number least = true ↔
      ∃ n : Nat, number.value? = some (n : ℚ) ∧ least ≤ n := by
  rw [admits_integer_iff]
  constructor
  · rintro ⟨⟨z, hvalue⟩, hleast⟩
    rw [isBelow_iff hvalue, not_lt] at hleast
    have hz : (least : Int) ≤ z := by exact_mod_cast hleast
    obtain ⟨n, rfl⟩ := Int.eq_ofNat_of_zero_le (by omega : 0 ≤ z)
    exact ⟨n, by simpa using hvalue, by omega⟩
  · rintro ⟨n, hvalue, hleast⟩
    rw [isBelow_iff hvalue, not_lt]
    exact ⟨⟨n, by simpa using hvalue⟩, by exact_mod_cast hleast⟩

/-- Demands an integer between two bounds. -/
def integerBetween (least most : Nat) : Schema :=
  .all [.type [.integer], .minimum least, .maximum most]

theorem check_number_integerBetween_eq_nil {path : Json.Path} {least most : Nat} :
    check path (.number number) (integerBetween least most) = [] ↔
      Kind.integer.admits (.number number) = true ∧
        ¬isBelow number least = true ∧ ¬isAbove number most = true := by
  simp [integerBetween, check, checkAll]

/-- What meets the demand for an integer between two bounds is a number, in any spelling, whose value
is such an integer. -/
theorem check_integerBetween_eq_nil_iff {path : Json.Path} {found : Json} {least most : Nat} :
    check path found (integerBetween least most) = [] ↔
      ∃ (number : Json.Number) (n : Nat), found = .number number ∧
        number.value? = some (n : ℚ) ∧ least ≤ n ∧ n ≤ most := by
  cases found with
  | number number =>
      rw [check_number_integerBetween_eq_nil, ← and_assoc, admits_integer_not_isBelow_iff]
      constructor
      · rintro ⟨⟨n, hvalue, hleast⟩, hmost⟩
        rw [isAbove_iff hvalue, not_lt] at hmost
        exact ⟨number, n, rfl, hvalue, hleast, by exact_mod_cast hmost⟩
      · rintro ⟨same, n, ⟨rfl⟩, hvalue, hleast, hmost⟩
        rw [isAbove_iff hvalue, not_lt]
        exact ⟨⟨n, hvalue, hleast⟩, by exact_mod_cast hmost⟩
  | _ => simp [integerBetween, check, checkAll, Kind.admits]

end Schema
end ExtensionLint
