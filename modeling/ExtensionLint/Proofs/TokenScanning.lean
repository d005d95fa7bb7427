import ExtensionLint.Json.Printer
import ExtensionLint.Json.Tolerant
import ExtensionLint.Proofs.DecimalDigits
import ExtensionLint.Proofs.SoundValues

/-!
Tokens as they are written. What the printer writes for a string, for an integer of 64 bits and for a
word of the grammar is scanned as one token that stands for the same value, and the scanner stops
where the printer did. After a number or a word this takes a delimiter, since a letter, a digit or a
point would go on with the token.
-/

namespace ExtensionLint

namespace Json

/-- Holds of a text that ends here or goes on with a delimiter. -/
def Delimited (s : List Char) : Prop :=
  ∀ c ∈ s.head?, c = ',' ∨ c = ']' ∨ c = '}' ∨ c = '\n'

theorem delimited_nil : Delimited [] := by simp [Delimited]

theorem delimited_cons {c : Char} {s : List Char}
    (h : c = ',' ∨ c = ']' ∨ c = '}' ∨ c = '\n') : Delimited (c :: s) := by
  simpa [Delimited] using h

section Numbers

variable {rest : List Char} (hrest : Delimited rest)
include hrest

theorem scanDigits_toDigits (n : Nat) :
    scanDigits (Nat.toDigits 10 n ++ rest) = .ok (Nat.toDigits 10 n, rest) := by
  have hdigits : ∀ c ∈ Nat.toDigits 10 n, c.isDigit = true :=
    fun c => Text.isDigit_of_mem_toDigits
  have htake : rest.takeWhile Char.isDigit = [] ∧ rest.dropWhile Char.isDigit = rest := by
    cases rest with
    | nil => exact ⟨rfl, rfl⟩
    | cons c s => rcases hrest c rfl with rfl | rfl | rfl | rfl <;> exact ⟨rfl, rfl⟩
  rw [scanDigits, List.takeWhile_append_of_pos hdigits, List.dropWhile_append_of_pos hdigits,
    htake.1, htake.2, List.append_nil]
  simp [Nat.toDigits_ne_nil]

theorem scanWhole_toDigits (n : Nat) :
    scanWhole (Nat.toDigits 10 n ++ rest) = .ok (Nat.toDigits 10 n, rest) := by
  have hscan := scanDigits_toDigits hrest n
  rcases Nat.eq_zero_or_pos n with rfl | hpos
  · rfl
  · obtain ⟨c, digits, hdigits, hne⟩ := Text.exists_cons_toDigits hpos
    rw [hdigits, List.cons_append] at hscan ⊢
    unfold scanWhole
    split
    · next heq => exact absurd (List.cons.inj heq).1 hne
    · rw [hscan]

theorem scanFraction_delimited : scanFraction rest = .ok (none, rest) := by
  cases rest with
  | nil => rfl
  | cons c s => rcases hrest c rfl with rfl | rfl | rfl | rfl <;> rfl

theorem scanExponent_delimited : scanExponent rest = .ok (none, rest) := by
  cases rest with
  | nil => rfl
  | cons c s => rcases hrest c rfl with rfl | rfl | rfl | rfl <;> rfl

theorem scanDecimal_toDigits (negative : Bool) (n : Nat) :
    scanDecimal negative (Nat.toDigits 10 n ++ rest) =
      .ok (⟨negative, Nat.toDigits 10 n, none, none⟩, rest) := by
  simp only [scanDecimal, scanWhole_toDigits hrest, scanFraction_delimited hrest,
    scanExponent_delimited hrest]

end Numbers

theorem Number.ofLiteral?_toDigits {n : Nat} (h : n ≤ Text.word64Max) :
    Number.ofLiteral? ⟨false, Nat.toDigits 10 n, none, none⟩ = some (.integer n) := by
  simp [Number.ofLiteral?, Text.decimalValue_toDigits, h]

theorem Number.ofLiteral?_neg_toDigits {n : Nat} (h : n + 1 ≤ 2 ^ 63) :
    Number.ofLiteral? ⟨true, Nat.toDigits 10 (n + 1), none, none⟩ =
      some (.integer (Int.negSucc n)) := by
  have hpos : decide (0 < n + 1) = true := decide_eq_true n.succ_pos
  have hmost : decide (n + 1 ≤ Nat.pow 2 63) = true := decide_eq_true h
  simp only [Number.ofLiteral?, Text.decimalValue_toDigits, hpos, hmost]
  rfl

section Strings

open Tolerant

/-- Puts a character in front of what a scanner of strings finds. -/
def prepend (c : Char) (found : Scanned (List Char)) : Scanned (List Char) :=
  found.map fun (tail, last) => (c :: tail, last)

theorem scanString_escape {quote c : Char} {s rest : List Char} (hquote : quote ≠ '\\')
    (hescape : scanEscape quote s = .ok (c, rest)) :
    scanString quote true ('\\' :: s) = prepend c (scanString quote true rest) := by
  rw [scanString, if_neg hquote.symm, if_pos rfl]
  split
  · next hfound => rw [hescape] at hfound; cases hfound
  · next hfound =>
      rw [hescape] at hfound
      obtain ⟨rfl, rfl⟩ := by simpa using hfound
      cases scanString quote true rest <;> rfl

theorem scanString_plain {quote c : Char} {rest : List Char} (hquote : c ≠ quote)
    (hescape : c ≠ '\\') :
    scanString quote true (c :: rest) = prepend c (scanString quote true rest) := by
  rw [scanString, if_neg hquote, if_neg hescape]
  simp only [Bool.not_true, Bool.false_and, Bool.false_eq_true, if_false]
  cases scanString quote true rest <;> rfl

/-- Four hexadecimal digits are scanned as the code unit they denote. -/
theorem scanCodeUnit_control {n : Nat} (h : n < 0x20) (rest : List Char) :
    scanCodeUnit ('0' :: '0' :: hexDigit (n / 16) :: hexDigit (n % 16) :: rest) =
      .ok (Char.ofNat n, rest) := by
  have hdigits : ∀ n < 0x20,
      ['0', '0', hexDigit (n / 16), hexDigit (n % 16)].all Text.isHexDigit = true ∧
        Text.hexadecimalValue ['0', '0', hexDigit (n / 16), hexDigit (n % 16)] = n := by
    decide
  obtain ⟨hall, hvalue⟩ := hdigits n h
  have hscan : scanHex4 ('0' :: '0' :: hexDigit (n / 16) :: hexDigit (n % 16) :: rest) =
      some (['0', '0', hexDigit (n / 16), hexDigit (n % 16)], rest) := by
    show (if _ then _ else _) = _
    rw [if_pos]
    · rfl
    · exact Bool.and_eq_true_iff.mpr ⟨rfl, hall⟩
  have hlow : isLowSurrogate n = false := by
    rw [isLowSurrogate, decide_eq_false (by omega), Bool.false_and]
  have hhigh : isHighSurrogate n = false := by
    rw [isHighSurrogate, decide_eq_false (by omega), Bool.false_and]
  simp [scanCodeUnit, hscan, hvalue, hlow, hhigh]

/-- A character is written as itself or as an escape that stands for it. -/
theorem writeChar_cases (c : Char) :
    (writeChar c = [c] ∧ c ≠ '"' ∧ c ≠ '\\') ∨
      ∃ escape, writeChar c = '\\' :: escape ∧
        ∀ rest, scanEscape '"' (escape ++ rest) = .ok (c, rest) := by
  have hnat : ∀ n, c.toNat = n → c = Char.ofNat n := by
    rintro _ rfl
    exact c.ofNat_toNat.symm
  unfold writeChar
  split
  · next h => exact .inr ⟨['"'], rfl, fun rest => by rw [h]; rfl⟩
  · next hquote =>
    split
    · next h => exact .inr ⟨['\\'], rfl, fun rest => by rw [h]; rfl⟩
    · next hslash =>
      split
      · next h => exact .inr ⟨['b'], rfl, fun rest => by rw [hnat 8 h]; rfl⟩
      split
      · next h => exact .inr ⟨['f'], rfl, fun rest => by rw [hnat 12 h]; rfl⟩
      split
      · next h => exact .inr ⟨['n'], rfl, fun rest => by rw [h]; rfl⟩
      split
      · next h => exact .inr ⟨['r'], rfl, fun rest => by rw [h]; rfl⟩
      split
      · next h => exact .inr ⟨['t'], rfl, fun rest => by rw [h]; rfl⟩
      split
      · next h =>
        refine .inr ⟨['u', '0', '0', hexDigit (c.toNat / 16), hexDigit (c.toNat % 16)], rfl,
          fun rest => ?_⟩
        have hunit := scanCodeUnit_control h rest
        rw [← hnat c.toNat rfl] at hunit
        exact hunit
      · exact .inl ⟨rfl, hquote, hslash⟩

theorem scanString_write (s rest : List Char) :
    scanString '"' true (s.flatMap writeChar ++ '"' :: rest) = .ok (s, rest) := by
  induction s with
  | nil => rw [List.flatMap_nil, List.nil_append, scanString, if_pos rfl]
  | cons c s ih =>
      rw [List.flatMap_cons, List.append_assoc]
      rcases writeChar_cases c with ⟨hself, hquote, hslash⟩ | ⟨escape, hwrite, hescape⟩
      · rw [hself, List.singleton_append, scanString_plain hquote hslash, ih]
        rfl
      · rw [hwrite, List.cons_append, scanString_escape (by decide) (hescape _), ih]
        rfl

theorem scan_writeString (s : String) (rest : List Char) :
    scan (writeString s ++ rest) = .ok (.string s, rest) := by
  have hwritten : writeString s ++ rest = '"' :: (s.toList.flatMap writeChar ++ '"' :: rest) := by
    simp [writeString]
  have hpunctuation : punctuation? '"' = none := by decide
  simp [hwritten, scan, hpunctuation, scanString_write]

end Strings

section Values

open Tolerant

theorem exists_cons_writeInt (i : Int) :
    ∃ c s, writeInt i = c :: s ∧ (c = '-' ∨ c.isDigit = true) := by
  cases i with
  | ofNat n =>
      obtain ⟨c, digits, hdigits⟩ := List.exists_cons_of_ne_nil (Nat.toDigits_ne_nil (n := n))
      exact ⟨c, digits, hdigits, .inr (Text.isDigit_of_mem_toDigits (hdigits ▸ List.mem_cons_self ..))⟩
  | negSucc n => exact ⟨'-', _, rfl, .inl rfl⟩

theorem takeSign_of_isDigit {c : Char} {s : List Char} (h : c.isDigit = true) :
    takeSign (c :: s) = (none, c :: s) := by
  unfold takeSign
  split
  · next heq => exact absurd ((List.cons.inj heq).1 ▸ h) (by decide)
  · next heq => exact absurd ((List.cons.inj heq).1 ▸ h) (by decide)
  · rfl

theorem scan_of_isDigit {c : Char} {s : List Char} (h : c.isDigit = true) :
    scan (c :: s) = scanNumber (c :: s) := by
  have hne : ∀ d : Char, d.isDigit = false → c ≠ d := by
    rintro d hd rfl
    exact Bool.false_ne_true (hd.symm.trans h)
  have hpunctuation : punctuation? c = none := by
    simp [punctuation?, hne '{' rfl, hne '}' rfl, hne '[' rfl, hne ']' rfl, hne ':' rfl,
      hne ',' rfl]
  simp [scan, hpunctuation, hne '"' rfl, hne apostrophe rfl, h]

variable {rest : List Char} (hrest : Delimited rest)
include hrest

theorem scanSigned_toDigits (sign : Option Char) {n : Nat} {number : Number}
    (hvalue : Number.ofLiteral? ⟨sign = some '-', Nat.toDigits 10 n, none, none⟩ = some number) :
    ∃ text, scanSigned sign (Nat.toDigits 10 n ++ rest) =
      .ok (.number text (.number number), rest) := by
  simp [scanSigned, scanDecimal_toDigits hrest, decimalValue, hvalue]

/-- The digits of a number are not taken for a hexadecimal number. -/
theorem scanMagnitude_toDigits (sign : Option Char) (n : Nat) :
    scanMagnitude sign (Nat.toDigits 10 n ++ rest) = scanSigned sign (Nat.toDigits 10 n ++ rest) := by
  unfold scanMagnitude
  split
  · next mark after heq =>
      -- Only zero starts with the digit zero, and then a delimiter stands where the mark would.
      rcases Nat.eq_zero_or_pos n with rfl | hpos
      · rw [Nat.toDigits_zero, List.singleton_append, List.cons.injEq] at heq
        rw [heq.2] at hrest
        rcases hrest mark rfl with rfl | rfl | rfl | rfl <;> rfl
      · obtain ⟨c, digits, hdigits, hne⟩ := Text.exists_cons_toDigits hpos
        rw [hdigits, List.cons_append] at heq
        exact absurd (List.cons.inj heq).1 hne
  · rfl

theorem scan_writeInt {i : Int} (hfits : (Number.integer i).Fits) :
    ∃ text, scan (writeInt i ++ rest) = .ok (.number text (.number (.integer i)), rest) := by
  obtain ⟨hleast, hmost⟩ := hfits
  cases i with
  | ofNat n =>
      have hscan := scanMagnitude_toDigits hrest none n
      have hvalue := scanSigned_toDigits hrest none
        (Number.ofLiteral?_toDigits (Int.ofNat_le.mp hmost))
      rw [← hscan] at hvalue
      obtain ⟨c, digits, hdigits⟩ := List.exists_cons_of_ne_nil (Nat.toDigits_ne_nil (n := n))
      have hdigit : c.isDigit = true := Text.isDigit_of_mem_toDigits (hdigits ▸ List.mem_cons_self ..)
      rw [writeInt]
      rw [hdigits, List.cons_append] at hvalue ⊢
      rw [scan_of_isDigit hdigit, scanNumber, takeSign_of_isDigit hdigit]
      exact hvalue
  | negSucc n =>
      have hscan := scanMagnitude_toDigits hrest (some '-') (n + 1)
      have hvalue := scanSigned_toDigits hrest (some '-')
        (Number.ofLiteral?_neg_toDigits (by omega : n + 1 ≤ 2 ^ 63))
      rw [← hscan] at hvalue
      exact hvalue

theorem scan_keyword {word : List Char} {token : Token} (hknown : (word, token) ∈ keywords) :
    scan (word ++ rest) = .ok (token, rest) := by
  simp only [keywords, List.mem_cons, Prod.mk.injEq, List.not_mem_nil, or_false] at hknown
  rcases hknown with ⟨rfl, rfl⟩ | ⟨rfl, rfl⟩ | ⟨rfl, rfl⟩
  all_goals
    cases rest with
    | nil => rfl
    | cons c s => rcases hrest c rfl with rfl | rfl | rfl | rfl <;> rfl

end Values

end Json
end ExtensionLint
