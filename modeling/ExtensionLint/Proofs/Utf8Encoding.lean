import ExtensionLint.Text.Utf8
import Mathlib.Data.String.Basic
import Mathlib.Tactic.SplitIfs

/-!
Text as UTF-8. A character is one byte, or an opening byte and up to three bytes that continue it; the
opening byte says how many, and keeps the second byte within the bounds that rule out longer forms and
surrogates. Reading the bytes of a text gives back the text, so nothing of it is malformed.
-/

namespace ExtensionLint.Utf8

section Start

variable {b : UInt8} {n next : Nat}

theorem start_two (hb : b.toNat = n + 192) (hlow : 2 ≤ n) (hhigh : n < 32) :
    start b = ([], some ⟨1, 0x80, 0xBF, n, 1⟩) := by
  simp only [start, hb]
  rw [if_neg (by omega), if_pos (by simp; omega), show (n + 192) % 0x20 = n by omega]

/-- The opening byte of a character of three bytes lets in the second one, unless two bytes would do
or the character would be a surrogate. -/
theorem start_three (hb : b.toNat = n + 224) (hn : n < 16) (hnext : next < 64)
    (hlong : n = 0 → 32 ≤ next) (hsurrogate : n = 13 → next < 32) :
    ∃ least most, start b = ([], some ⟨2, least, most, n, 1⟩) ∧
      least.toNat ≤ next + 128 ∧ next + 128 ≤ most.toNat := by
  simp only [start, hb]
  rw [if_neg (by omega), if_neg (by simp), show (n + 224) % 0x10 = n by omega]
  by_cases hzero : n = 0
  · subst hzero
    exact ⟨_, _, rfl, by simp; omega, by simp; omega⟩
  · rw [if_neg (by simpa using hzero)]
    by_cases hlate : n = 13
    · subst hlate
      exact ⟨_, _, rfl, by simp, by simp; omega⟩
    · rw [if_neg (by simpa using hlate), if_pos (by simp; omega)]
      exact ⟨_, _, rfl, by simp, by simp; omega⟩

/-- The opening byte of a character of four bytes lets in the second one, unless three bytes would do
or there is no such character. -/
theorem start_four (hb : b.toNat = n + 240) (hn : n < 5) (hnext : next < 64)
    (hlong : n = 0 → 16 ≤ next) (hlast : n = 4 → next < 16) :
    ∃ least most, start b = ([], some ⟨3, least, most, n, 1⟩) ∧
      least.toNat ≤ next + 128 ∧ next + 128 ≤ most.toNat := by
  simp only [start, hb]
  rw [if_neg (by omega), if_neg (by simp), if_neg (by simp), if_neg (by simp), if_neg (by simp)]
  by_cases hzero : n = 0
  · subst hzero
    exact ⟨_, _, rfl, by simp; omega, by simp; omega⟩
  · rw [if_neg (by simpa using hzero)]
    by_cases hfour : n = 4
    · subst hfour
      exact ⟨_, _, rfl, by simp, by simp; omega⟩
    · rw [if_neg (by simpa using hfour), if_pos (by simp; omega), show (n + 240) % 8 = n by omega]
      exact ⟨_, _, rfl, by simp, by simp; omega⟩

end Start

theorem decodeFrom_of_start {b : UInt8} {pending : Pending} (h : start b = ([], some pending))
    (rest : Bytes) : decodeFrom none (b :: rest) = decodeFrom (some pending) rest := by
  simp only [decodeFrom, step, h, List.nil_append]

section Continue

variable {n : Nat} {least most : UInt8} (bits taken : Nat) (rest : Bytes)

theorem step_of_within {missing : Nat} (hn : n < 64) (hleast : least.toNat ≤ n + 128)
    (hmost : n + 128 ≤ most.toNat) :
    step (some ⟨missing, least, most, bits, taken⟩) (UInt8.ofNat (n + 128)) =
      if missing ≤ 1 then ([.scalar (Char.ofNat (bits * 64 + n)) (taken + 1)], none)
      else ([], some ⟨missing - 1, 0x80, 0xBF, bits * 64 + n, taken + 1⟩) := by
  have hsize : UInt8.size = 256 := rfl
  have hb : (UInt8.ofNat (n + 128)).toNat = n + 128 := UInt8.toNat_ofNat_of_lt (by omega)
  have hwithin : (decide (least ≤ UInt8.ofNat (n + 128)) &&
      decide (UInt8.ofNat (n + 128) ≤ most)) = true := by
    rw [Bool.and_eq_true, decide_eq_true_eq, decide_eq_true_eq, UInt8.le_iff_toNat_le,
      UInt8.le_iff_toNat_le, hb]
    exact ⟨hleast, hmost⟩
  rw [step, if_pos hwithin, hb, show (n + 128) % 64 = n by omega]

theorem decodeFrom_last (hn : n < 64) (hleast : least.toNat ≤ n + 128)
    (hmost : n + 128 ≤ most.toNat) :
    decodeFrom (some ⟨1, least, most, bits, taken⟩) (UInt8.ofNat (n + 128) :: rest) =
      .scalar (Char.ofNat (bits * 64 + n)) (taken + 1) :: decodeFrom none rest := by
  simp only [decodeFrom, step_of_within bits taken hn hleast hmost]
  rfl

/-- A byte before the last one adds its bits. -/
theorem decodeFrom_more {missing : Nat} (hn : n < 64) (hleast : least.toNat ≤ n + 128)
    (hmost : n + 128 ≤ most.toNat) :
    decodeFrom (some ⟨missing + 2, least, most, bits, taken⟩) (UInt8.ofNat (n + 128) :: rest) =
      decodeFrom (some ⟨missing + 1, 0x80, 0xBF, bits * 64 + n, taken + 1⟩) rest := by
  simp only [decodeFrom, step_of_within bits taken hn hleast hmost]
  rfl

end Continue

theorem decodeFrom_encode (c : Char) (rest : Bytes) :
    ∃ length, decodeFrom none (String.utf8EncodeChar c ++ rest)
      = .scalar c length :: decodeFrom none rest := by
  have hvalid : c.toNat.isValidChar := c.valid
  have hchar := Char.ofNat_toNat c
  have hval : c.val.toNat = c.toNat := rfl
  simp only [String.utf8EncodeChar, hval]
  generalize c.toNat = n at hvalid hchar
  subst hchar
  -- A byte that continues a character is within any bounds but those of a second byte.
  have hlow : ∀ m, (0x80 : UInt8).toNat ≤ m % 64 + 128 := fun m => Nat.le_add_left _ _
  have hhigh : ∀ m, m % 64 + 128 ≤ (0xBF : UInt8).toNat := fun m => by simp; omega
  have hmod : ∀ m, m % 64 < 64 := fun m => Nat.mod_lt m (by decide)
  have hsize : UInt8.size = 256 := rfl
  split_ifs with hone htwo hthree
  · have hb : (UInt8.ofNat n).toNat = n := UInt8.toNat_ofNat_of_lt (by omega)
    refine ⟨1, ?_⟩
    simp only [List.singleton_append, decodeFrom, step, start, hb]
    rw [if_pos (by omega)]
    rfl
  · have hb : (UInt8.ofNat (n / 64 % 32 + 192)).toNat = n / 64 % 32 + 192 :=
      UInt8.toNat_ofNat_of_lt (by omega)
    have hstart := start_two hb (by omega) (by omega)
    refine ⟨2, ?_⟩
    rw [List.cons_append, List.singleton_append, decodeFrom_of_start hstart,
      decodeFrom_last _ _ _ (hmod n) (hlow n) (hhigh n), show n / 64 % 32 * 64 + n % 64 = n by omega]
  · have hb : (UInt8.ofNat (n / 4096 % 16 + 224)).toNat = n / 4096 % 16 + 224 :=
      UInt8.toNat_ofNat_of_lt (by omega)
    obtain ⟨least, most, hstart, hleast, hmost⟩ := start_three hb (by omega) (hmod (n / 64))
      (by omega) (by omega)
    refine ⟨3, ?_⟩
    rw [List.cons_append, List.cons_append, List.singleton_append, decodeFrom_of_start hstart,
      decodeFrom_more _ _ _ (hmod _) hleast hmost, decodeFrom_last _ _ _ (hmod n) (hlow n) (hhigh n),
      show (n / 4096 % 16 * 64 + n / 64 % 64) * 64 + n % 64 = n by omega]
  · have hb : (UInt8.ofNat (n / 262144 % 8 + 240)).toNat = n / 262144 % 8 + 240 :=
      UInt8.toNat_ofNat_of_lt (by omega)
    obtain ⟨least, most, hstart, hleast, hmost⟩ := start_four hb (by omega) (hmod (n / 4096))
      (by omega) (by omega)
    refine ⟨4, ?_⟩
    rw [List.cons_append, List.cons_append, List.cons_append, List.singleton_append,
      decodeFrom_of_start hstart, decodeFrom_more _ _ _ (hmod _) hleast hmost,
      decodeFrom_more _ _ _ (hmod _) (hlow _) (hhigh _),
      decodeFrom_last _ _ _ (hmod n) (hlow n) (hhigh n),
      show ((n / 262144 % 8 * 64 + n / 4096 % 64) * 64 + n / 64 % 64) * 64 + n % 64 = n by omega]

theorem ofText_eq_flatMap (s : String) : ofText s = s.toList.flatMap String.utf8EncodeChar := by
  rw [ofText, String.toUTF8_eq_toByteArray]
  conv_lhs => rw [← String.ofList_toList (s := s), String.toByteArray_ofList]
  rw [List.utf8Encode, List.data_toByteArray]

/-- The bytes of a text read as that text, and what comes after them is read by itself. -/
theorem toLenientText_ofText_append (s : String) (rest : Bytes) :
    toLenientText (ofText s ++ rest) = s.toList ++ toLenientText rest := by
  rw [toLenientText, toLenientText, decode, decode, ofText_eq_flatMap]
  induction s.toList with
  | nil => rfl
  | cons c text ih =>
      obtain ⟨length, hdecode⟩ :=
        decodeFrom_encode c (text.flatMap String.utf8EncodeChar ++ rest)
      rw [List.flatMap_cons, List.append_assoc, hdecode, List.map_cons, ih]
      rfl

theorem toLenientText_ofText (s : String) : toLenientText (ofText s) = s.toList := by
  have htext := toLenientText_ofText_append s []
  rw [List.append_nil] at htext
  exact htext.trans (List.append_nil _)

theorem ofText_append (s t : String) : ofText (s ++ t) = ofText s ++ ofText t := by
  rw [ofText_eq_flatMap, ofText_eq_flatMap, ofText_eq_flatMap, String.toList_append,
    List.flatMap_append]

end ExtensionLint.Utf8
