import ExtensionLint.Text.Ascii
import ExtensionLint.Text.Blank

/-!
Numbers and their decimal digits. The digits of a number denote it, and digits without a superfluous
zero in front are the digits of the number that they denote, so a number is written in one way only
once signs and such zeros are left out.
-/

namespace ExtensionLint.Text

theorem toNat_of_isDigit {c : Char} (h : c.isDigit = true) : 48 ≤ c.toNat ∧ c.toNat ≤ 57 := by
  simpa [Char.isDigit, UInt32.le_iff_toNat_le] using h

theorem isBlank_of_isDigit {c : Char} (h : c.isDigit = true) : isBlank c = false := by
  have hrange := toNat_of_isDigit h
  simp only [isBlank, Bool.or_eq_false_iff, Bool.and_eq_false_iff, decide_eq_false_iff_not,
    beq_eq_false_iff_ne]
  omega

theorem digitsValueFrom_append_singleton (base value : Nat) (s : List Char) (c : Char) :
    digitsValueFrom base value (s ++ [c]) =
      digitsValueFrom base value s * base + (hexValue? c).getD 0 := by
  induction s generalizing value with
  | nil => rfl
  | cons d s ih => exact ih _

theorem hexValue?_digitChar : ∀ n < 10, hexValue? n.digitChar = some n := by
  decide

/-- Each digit weighs ten times as much as the one after it. -/
theorem digitsValueFrom_eq_ofDigitChars {s : List Char} (hdigits : ∀ c ∈ s, c.isDigit = true)
    (value : Nat) : digitsValueFrom 10 value s = Nat.ofDigitChars 10 s value := by
  induction s generalizing value with
  | nil => rfl
  | cons c s ih =>
      obtain ⟨hc, hs⟩ := List.forall_mem_cons.mp hdigits
      have hvalue : hexValue? c = some (c.toNat - '0'.toNat) := if_pos hc
      rw [digitsValueFrom, hvalue, Option.getD_some, ih hs, Nat.ofDigitChars_cons, Nat.mul_comm]

theorem decimalValue_eq_ofDigitChars {s : List Char} (hdigits : ∀ c ∈ s, c.isDigit = true) :
    decimalValue s = Nat.ofDigitChars 10 s 0 :=
  digitsValueFrom_eq_ofDigitChars hdigits 0

theorem decimalValue_toDigits (n : Nat) : decimalValue (Nat.toDigits 10 n) = n := by
  induction n using Nat.strongRecOn with
  | ind n ih =>
      by_cases hsmall : n < 10
      · rw [Nat.toDigits_of_lt_base hsmall, decimalValue, digitsValueFrom, digitsValueFrom,
          hexValue?_digitChar n hsmall]
        simp
      · have hlast := hexValue?_digitChar (n % 10) (Nat.mod_lt n (by decide))
        have hfront := ih (n / 10) (by omega)
        rw [decimalValue] at hfront
        rw [Nat.toDigits_of_base_le (by decide) (Nat.le_of_not_lt hsmall), decimalValue,
          digitsValueFrom_append_singleton, hfront, hlast, Option.getD_some]
        omega

theorem isDigit_of_mem_toDigits {n : Nat} {c : Char} (h : c ∈ Nat.toDigits 10 n) :
    c.isDigit = true :=
  Nat.isDigit_of_mem_toDigits (by decide) (by decide) h

/-- The decimal digits of a positive number do not start with a zero. -/
theorem exists_cons_toDigits {n : Nat} (hpos : 0 < n) :
    ∃ c rest, Nat.toDigits 10 n = c :: rest ∧ c ≠ '0' := by
  induction n using Nat.strongRecOn with
  | ind n ih =>
      by_cases hsmall : n < 10
      · have hdigit : ∀ n < 10, 0 < n → n.digitChar ≠ '0' := by decide
        exact ⟨n.digitChar, [], Nat.toDigits_of_lt_base hsmall, hdigit n hsmall hpos⟩
      · obtain ⟨c, rest, hfront, hne⟩ := ih (n / 10) (by omega) (by omega)
        refine ⟨c, rest ++ [(n % 10).digitChar], ?_, hne⟩
        rw [Nat.toDigits_of_base_le (by decide) (Nat.le_of_not_lt hsmall), hfront, List.cons_append]

theorem exists_digitChar {c : Char} (h : c.isDigit = true) : ∃ n < 10, c = n.digitChar := by
  have hrange := toNat_of_isDigit h
  refine ⟨c.toNat - 48, by omega, ?_⟩
  apply Char.toNat_inj.mp
  rw [Nat.toNat_digitChar_of_lt_ten (by omega)]
  omega

theorem toDigits_append {value : Nat} (hpos : 0 < value) {s : List Char}
    (hdigits : ∀ c ∈ s, c.isDigit = true) :
    Nat.toDigits 10 value ++ s = Nat.toDigits 10 (digitsValueFrom 10 value s) := by
  induction s generalizing value with
  | nil => rw [List.append_nil, digitsValueFrom]
  | cons c s ih =>
      simp only [List.mem_cons, forall_eq_or_imp] at hdigits
      obtain ⟨n, hn, rfl⟩ := exists_digitChar hdigits.1
      have hnext : Nat.toDigits 10 value ++ [n.digitChar] = Nat.toDigits 10 (value * 10 + n) := by
        rw [← Nat.toDigits_of_lt_base hn, Nat.toDigits_append_toDigits (by decide) hpos hn,
          Nat.mul_comm]
      rw [digitsValueFrom, hexValue?_digitChar n hn, Option.getD_some,
        ← ih (by omega) hdigits.2, ← hnext, List.append_assoc, List.singleton_append]

/-- Digits without a superfluous zero in front are those of the number that they denote. -/
theorem toDigits_decimalValue {c : Char} {s : List Char}
    (hdigits : ∀ d ∈ c :: s, d.isDigit = true) (hlead : c ≠ '0' ∨ s = []) :
    Nat.toDigits 10 (decimalValue (c :: s)) = c :: s := by
  simp only [List.mem_cons, forall_eq_or_imp] at hdigits
  obtain ⟨n, hn, rfl⟩ := exists_digitChar hdigits.1
  have hvalue : decimalValue (n.digitChar :: s) = digitsValueFrom 10 n s := by
    rw [decimalValue, digitsValueFrom, hexValue?_digitChar n hn]
    simp
  rw [hvalue]
  rcases hlead with hne | rfl
  · have hpos : 0 < n := Nat.pos_of_ne_zero fun hzero => hne (by rw [hzero]; rfl)
    rw [← toDigits_append hpos hdigits.2, Nat.toDigits_of_lt_base hn, List.singleton_append]
  · exact Nat.toDigits_of_lt_base hn

theorem digits?_eq_some_iff {limit n : Nat} {s : List Char} :
    digits? limit s = some n ↔
      s ≠ [] ∧ (∀ c ∈ s, c.isDigit = true) ∧ decimalValue s = n ∧ n ≤ limit := by
  simp only [digits?, Option.ite_none_left_eq_some, Option.ite_none_right_eq_some, Bool.or_eq_true,
    not_or, Bool.not_eq_true', Bool.not_eq_false, List.isEmpty_iff, List.all_eq_true,
    Option.some.injEq]
  constructor
  · rintro ⟨⟨hne, hdigits⟩, hlimit, rfl⟩
    exact ⟨hne, hdigits, rfl, hlimit⟩
  · rintro ⟨hne, hdigits, rfl, hlimit⟩
    exact ⟨⟨hne, hdigits⟩, hlimit, rfl⟩

theorem digits?_toDigits {limit n : Nat} (h : n ≤ limit) :
    digits? limit (Nat.toDigits 10 n) = some n :=
  digits?_eq_some_iff.mpr
    ⟨Nat.toDigits_ne_nil, fun _ => isDigit_of_mem_toDigits, decimalValue_toDigits n, h⟩

/-- A natural number is written in digits, after a plus sign or without one. -/
theorem natural?_eq_some_iff {limit n : Nat} {s : List Char} :
    natural? limit s = some n ↔
      ∃ digits, (s = digits ∨ s = '+' :: digits) ∧ digits? limit digits = some n := by
  constructor
  · intro h
    rw [natural?.eq_def] at h
    split at h
    · next digits => exact ⟨digits, .inr rfl, h⟩
    · exact ⟨s, .inl rfl, h⟩
  · rintro ⟨digits, rfl | rfl, h⟩
    · rw [natural?.eq_def]
      split
      · have hplus := (digits?_eq_some_iff.mp h).2.1 '+' List.mem_cons_self
        exact absurd hplus (by decide)
      · exact h
    · exact h

theorem natural?_toDigits {limit n : Nat} (h : n ≤ limit) :
    natural? limit (Nat.toDigits 10 n) = some n :=
  natural?_eq_some_iff.mpr ⟨_, .inl rfl, digits?_toDigits h⟩

end ExtensionLint.Text
