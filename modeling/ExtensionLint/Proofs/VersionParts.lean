import ExtensionLint.Proofs.DecimalDigits
import ExtensionLint.Proofs.Splitting
import ExtensionLint.Version

/-!
What a version is read as. The parts of a version are determined by its text alone: the blanks at its
ends are left out, its dots stand between components, and a component is a wildcard, or as many digits
as there are, a text up to the next digit, as many digits again, and the rest. Digits count by the
number that they denote where a 64-bit word holds it. The major number is that of the digits in front.
-/

namespace ExtensionLint.Version

/-- The number of digits, zero for no digits and for a number that no 64-bit word holds. -/
def wordValue (digits : List Char) : Nat :=
  if Nat.ofDigitChars 10 digits 0 < 2 ^ 64 then Nat.ofDigitChars 10 digits 0 else 0

section Value

variable {s : List Char} {n : Nat}

theorem le_word64Max_iff : n ≤ Text.word64Max ↔ n < 2 ^ 64 := Nat.le_sub_one_iff_lt (by decide)

/-- What is read as a number of a word is digits that denote it. -/
theorem digits?_word_eq_some_iff :
    Text.digits? Text.word64Max s = some n ↔
      s ≠ [] ∧ (∀ c ∈ s, c.isDigit = true) ∧ Nat.ofDigitChars 10 s 0 = n ∧ n < 2 ^ 64 := by
  rw [Text.digits?_eq_some_iff, le_word64Max_iff]
  refine and_congr_right fun _ => and_congr_right fun hdigits => ?_
  rw [Text.decimalValue_eq_ofDigitChars hdigits]

theorem getD_digits? (hdigits : ∀ c ∈ s, c.isDigit = true) :
    (Text.digits? Text.word64Max s).getD 0 = wordValue s := by
  cases hread : Text.digits? Text.word64Max s with
  | some n =>
      obtain ⟨-, -, rfl, hfits⟩ := digits?_word_eq_some_iff.mp hread
      exact (if_pos hfits).symm
  | none =>
      rcases eq_or_ne s [] with rfl | hne
      · rfl
      · have hlarge : ¬Nat.ofDigitChars 10 s 0 < 2 ^ 64 := fun hfits =>
          Option.some_ne_none _ ((digits?_word_eq_some_iff.mpr ⟨hne, hdigits, rfl, hfits⟩).symm.trans
            hread)
        exact (if_neg hlarge).symm

end Value

/-- Holds of a component and the part that it is: a wildcard, or the digits in front, the text up to the
next digit, the digits there, and the rest. -/
inductive Part.Reads : List Char → Part → Prop where
  | wildcard : Reads ['*'] ⟨2 ^ 64 - 1, "", 0, ""⟩
  | fields {component digits afterDigits text afterText second rest : List Char}
      (hstar : component ≠ ['*'])
      (hdigits : LongestFront Char.isDigit component digits afterDigits)
      (htext : LongestFront (fun c => !c.isDigit) afterDigits text afterText)
      (hsecond : LongestFront Char.isDigit afterText second rest) :
      Reads component
        ⟨wordValue digits, String.ofList text, wordValue second, String.ofList rest⟩

/-- Holds of a version and the list of its parts, those of the components between its dots. -/
def Reads (version : String) (parts : List Part) : Prop :=
  ∃ components, Text.Trimmed version.toList (['.'].intercalate components) ∧
    components ≠ [] ∧ (∀ component ∈ components, '.' ∉ component) ∧
    List.Forall₂ Part.Reads components parts

/-- Holds of a version and the number of the digits in front, if there are digits and a 64-bit word
holds it. -/
def Major (version : String) (m : Nat) : Prop :=
  ∃ kept digits rest, Text.Trimmed version.toList kept ∧
    LongestFront Char.isDigit kept digits rest ∧ digits ≠ [] ∧
    Nat.ofDigitChars 10 digits 0 = m ∧ m < 2 ^ 64

theorem splitNumber_eq (s : List Char) :
    splitNumber s = (wordValue (s.takeWhile Char.isDigit), s.dropWhile Char.isDigit) := by
  rw [splitNumber, getD_digits? (longestFront_takeWhile Char.isDigit s).passes]

namespace Part

variable {component : List Char} {part : Part}

/-- A component that is no wildcard is cut at the first digit, or what is none, three times. -/
theorem ofText_of_ne (hstar : component ≠ ['*']) :
    let afterDigits := component.dropWhile Char.isDigit
    let afterText := afterDigits.dropWhile fun c => !c.isDigit
    ofText component = ⟨wordValue (component.takeWhile Char.isDigit),
      String.ofList (afterDigits.takeWhile fun c => !c.isDigit),
      wordValue (afterText.takeWhile Char.isDigit),
      String.ofList (afterText.dropWhile Char.isDigit)⟩ := by
  simp only [ofText, if_neg hstar, splitNumber_eq, splitText]

theorem reads_ofText (component : List Char) : Reads component (ofText component) := by
  by_cases hstar : component = ['*']
  · subst hstar
    exact .wildcard
  · rw [ofText_of_ne hstar]
    exact .fields hstar (longestFront_takeWhile _ _) (longestFront_takeWhile _ _)
      (longestFront_takeWhile _ _)

theorem Reads.ofText_eq (h : Reads component part) : ofText component = part := by
  cases h with
  | wildcard => rfl
  | fields hstar hdigits htext hsecond =>
      rw [ofText_of_ne hstar, hdigits.takeWhile_eq, hdigits.dropWhile_eq, htext.takeWhile_eq,
        htext.dropWhile_eq, hsecond.takeWhile_eq, hsecond.dropWhile_eq]

/-- A component is one part. -/
theorem reads_iff (component : List Char) (part : Part) :
    Reads component part ↔ ofText component = part :=
  ⟨Reads.ofText_eq, fun h => h ▸ reads_ofText component⟩

end Part

/-- The parts of a version are the only ones that it is read as. -/
theorem reads_iff {version : String} {ps : List Part} : Reads version ps ↔ ps = parts version := by
  have hcomponents : ∀ components, Text.Trimmed version.toList (['.'].intercalate components) ∧
      components ≠ [] ∧ (∀ component ∈ components, '.' ∉ component) ↔
        Text.splitBy (· == '.') (Text.trim version.toList) = components := by
    intro components
    rw [Text.trimmed_iff, Text.splitBy_eq_iff '.' rfl fun c hc => eq_of_beq hc]
  constructor
  · rintro ⟨components, htrimmed, hne, hdots, hparts⟩
    rw [parts, (hcomponents components).mp ⟨htrimmed, hne, hdots⟩]
    exact ((forall₂_iff_map_eq Part.reads_iff).mp hparts).symm
  · rintro rfl
    obtain ⟨htrimmed, hne, hdots⟩ := (hcomponents _).mpr rfl
    exact ⟨_, htrimmed, hne, hdots, (forall₂_iff_map_eq Part.reads_iff).mpr rfl⟩

theorem major?_eq_some_iff {version : String} {m : Nat} :
    major? version = some m ↔ Major version m := by
  rw [major?, digits?_word_eq_some_iff]
  constructor
  · rintro ⟨hne, -, hvalue, hfits⟩
    exact ⟨_, _, _, Text.trimmed_trim _, longestFront_takeWhile _ _, hne, hvalue, hfits⟩
  · rintro ⟨kept, digits, rest, htrimmed, hfront, hne, hvalue, hfits⟩
    rw [← htrimmed.eq_trim, hfront.takeWhile_eq]
    exact ⟨hne, hfront.passes, hvalue, hfits⟩

end ExtensionLint.Version
