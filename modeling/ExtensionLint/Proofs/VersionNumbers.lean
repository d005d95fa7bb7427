import ExtensionLint.Proofs.DecimalDigits
import ExtensionLint.Proofs.Splitting
import ExtensionLint.Proofs.VersionOrder
import Mathlib.Data.List.Forall2
import Mathlib.Data.List.TakeWhile
import Mathlib.Logic.Function.Iterate

/-!
The numbers of a version. The blanks at the ends of a version touch its first and its last component
only, so versions with a common front compare as what follows it. The number in front of the first
component is the major number, and numbers that differ decide. A component of digits alone is its
number, so plain versions compare as their lists of numbers do, zeros at the end left out; and a
wildcard is larger than every component with another number.
-/

namespace ExtensionLint

namespace Version

/-- The parts of a text without blanks at its ends. -/
def partsOf (s : List Char) : List Part := (Text.splitBy (· == '.') s).map Part.ofText

theorem parts_eq (version : String) : parts version = partsOf (Text.trim version.toList) := rfl

/-- A dot stands between parts, and the blanks next to it belong to them. -/
theorem parts_append_dot (x y : String) :
    parts (x ++ "." ++ y) =
      partsOf (Text.trimStart x.toList) ++ partsOf (Text.trimEnd y.toList) := by
  have htext : (x ++ "." ++ y).toList = x.toList ++ '.' :: y.toList := by simp
  rw [parts_eq, htext, Text.trim_append_cons (by decide), partsOf,
    Text.splitBy_append_separator (by decide), List.map_append, ← partsOf, ← partsOf]

/-- Where the first comparison decides, the second is not looked at. -/
theorem then_of_ne_eq {first second : Ordering} (h : first ≠ .eq) :
    first.then second = first := by
  cases first with
  | eq => exact absurd rfl h
  | lt | gt => rfl

namespace Part

/-- A part that is a number alone. -/
def ofNumber (n : Nat) : Part := ⟨n, "", 0, ""⟩

theorem number_ofText {s : List Char} (h : s ≠ ['*']) : (ofText s).number = (splitNumber s).1 := by
  rw [ofText, if_neg h]

/-- Numbers that differ decide between parts. -/
theorem compare_of_number_ne {a b : Part} (h : a.number ≠ b.number) :
    compare a b = Ord.compare a.number b.number := by
  have hne : Ord.compare a.number b.number ≠ .eq := mt Nat.compare_eq_eq.mp h
  rw [compare, Ordering.then_assoc, Ordering.then_assoc, then_of_ne_eq hne]

theorem compare_ofNumber (m n : Nat) : compare (ofNumber m) (ofNumber n) = Ord.compare m n := by
  by_cases h : m = n
  · have hself : compare (ofNumber n) (ofNumber n) = .eq := Std.ReflCmp.compare_self
    rw [h, hself, Nat.compare_eq_eq.mpr rfl]
  · exact compare_of_number_ne h

end Part

/-- Numbers that differ at the front decide between versions. -/
theorem compareParts_of_number_ne {a b : Part} (h : a.number ≠ b.number) (as bs : List Part) :
    compareParts (a :: as) (b :: bs) = Ord.compare a.number b.number := by
  have hne : Ord.compare a.number b.number ≠ .eq := mt Nat.compare_eq_eq.mp h
  rw [compareParts, Part.compare_of_number_ne h, then_of_ne_eq hne]

theorem compareParts_append (front as bs : List Part) :
    compareParts (front ++ as) (front ++ bs) = compareParts as bs := by
  induction front with
  | nil => rfl
  | cons part front ih =>
      have hself : Part.compare part part = .eq := Std.ReflCmp.compare_self
      rw [List.cons_append, List.cons_append, compareParts, hself]
      exact ih

section Major

/-- The digits at the front of a text come before its first dot. -/
theorem takeWhile_isDigit_component (s : List Char) :
    (s.takeWhile fun c => !(c == '.')).takeWhile Char.isDigit = s.takeWhile Char.isDigit := by
  rw [List.takeWhile_takeWhile]
  congr 1
  funext c
  by_cases hc : c = '.'
  · subst hc
    rfl
  · simp [hc]

/-- The major number of a version is the number of its first part. -/
theorem exists_parts_of_major? {version : String} {m : Nat} (h : major? version = some m) :
    ∃ part rest, parts version = part :: rest ∧ part.number = m := by
  obtain ⟨pieces, hpieces⟩ :=
    List.head?_eq_some_iff.mp (Text.head?_splitBy (· == '.') (Text.trim version.toList))
  refine ⟨_, pieces.map Part.ofText, by rw [parts, hpieces, List.map_cons], ?_⟩
  have hdigits := takeWhile_isDigit_component (Text.trim version.toList)
  have hstar : ((Text.trim version.toList).takeWhile fun c => !(c == '.')) ≠ ['*'] := by
    -- a wildcard has no digits to read
    intro hstar
    rw [major?, ← hdigits, hstar] at h
    exact (Text.digits?_eq_some_iff.mp h).1 (by decide)
  rw [Part.number_ofText hstar, splitNumber, hdigits, ← major?, h, Option.getD_some]

/-- A version with a larger major number is the later one. -/
theorem compare_of_major_lt {a b : String} {m n : Nat} (ha : major? a = some m)
    (hb : major? b = some n) (h : m < n) : compare a b = .lt := by
  obtain ⟨first, firsts, hfirst, rfl⟩ := exists_parts_of_major? ha
  obtain ⟨second, seconds, hsecond, rfl⟩ := exists_parts_of_major? hb
  rw [compare, hfirst, hsecond, compareParts_of_number_ne (Nat.ne_of_lt h)]
  exact Nat.compare_eq_lt.mpr h

end Major

section Wildcard

/-- The value of the digits in front of a component, zero if there are none. -/
def leadingValue (component : List Char) : Nat :=
  Text.decimalValue (component.takeWhile Char.isDigit)

/-- A number that does not fit counts as zero, so no number is that of the wildcard by accident. -/
theorem number_lt_wildcard {component : List Char} (hstar : component ≠ ['*'])
    (hvalue : leadingValue component ≠ Text.word64Max) :
    (Part.ofText component).number < Part.wildcard.number := by
  have hlimit : Part.wildcard.number = Text.word64Max := rfl
  rw [Part.number_ofText hstar, splitNumber, hlimit]
  cases hdigits : Text.digits? Text.word64Max (component.takeWhile Char.isDigit) with
  | none => exact show 0 < Text.word64Max by decide
  | some n =>
      obtain ⟨-, -, hn, hle⟩ := Text.digits?_eq_some_iff.mp hdigits
      exact Nat.lt_of_le_of_ne hle (hn ▸ hvalue)

theorem parts_append_wildcard (x : String) :
    parts (x ++ ".*") = partsOf (Text.trimStart x.toList) ++ [Part.wildcard] := by
  have htext : x ++ ".*" = x ++ "." ++ "*" := by
    rw [String.append_assoc]
    rfl
  rw [htext, parts_append_dot]
  rfl

/-- A wildcard bounds the versions with its front: it is greater than each continuation whose first
component, the blanks at the end of the text left out, is no wildcard and does not start with the
number of one. -/
theorem compare_wildcard (x y : String) {component : List Char}
    (hcomponent : (Text.splitBy (· == '.') (Text.trimEnd y.toList)).head? = some component)
    (hstar : component ≠ ['*']) (hvalue : leadingValue component ≠ Text.word64Max) :
    compare (x ++ ".*") (x ++ "." ++ y) = .gt := by
  obtain ⟨components, hcomponents⟩ := List.head?_eq_some_iff.mp hcomponent
  have hlt := number_lt_wildcard hstar hvalue
  rw [compare, parts_append_wildcard, parts_append_dot, compareParts_append, partsOf, hcomponents,
    List.map_cons, compareParts_of_number_ne (Nat.ne_of_gt hlt)]
  exact Nat.compare_eq_gt.mpr hlt

/-- A wildcard is above a continuation with letters, more components, a wildcard among them, and a
number that no word holds. -/
theorem compare_wildcard_long :
    let y := "18446744073709551616beta2.*.7 "
    let component := "18446744073709551616beta2".toList
    (Text.splitBy (· == '.') (Text.trimEnd y.toList)).head? = some component ∧
      component ≠ ['*'] ∧ leadingValue component ≠ Text.word64Max ∧
      compare (" 1" ++ ".*") (" 1" ++ "." ++ y) = .gt := by
  intro y component
  have hcomponent :
      (Text.splitBy (· == '.') (Text.trimEnd y.toList)).head? = some component := by decide
  have hstar : component ≠ ['*'] := by decide
  have hvalue : leadingValue component ≠ Text.word64Max := by decide +kernel
  exact ⟨hcomponent, hstar, hvalue, compare_wildcard " 1" y hcomponent hstar hvalue⟩

end Wildcard

section Plain

/-- Holds of digits that denote a number of a 64-bit word. Zeros may stand in front. -/
structure Denotes (digits : String) (n : Nat) : Prop where
  nonempty : digits ≠ ""
  isDigit : ∀ c ∈ digits.toList, c.isDigit = true
  value : Text.decimalValue digits.toList = n
  fits : n < 2 ^ 64

section Numeral

variable {digits : String} {n : Nat}

theorem denotes_iff : Denotes digits n ↔ Text.digits? Text.word64Max digits.toList = some n := by
  have hempty : digits.toList ≠ [] ↔ digits ≠ "" := not_congr String.toList_eq_nil_iff
  rw [Text.digits?_eq_some_iff, hempty, le_word64Max_iff]
  constructor
  · rintro ⟨hne, hdigits, hvalue, hfits⟩
    exact ⟨hne, hdigits, hvalue, hfits⟩
  · rintro ⟨hne, hdigits, hvalue, hfits⟩
    exact ⟨hne, hdigits, hvalue, hfits⟩

theorem Denotes.ofText (h : Denotes digits n) :
    Part.ofText digits.toList = Part.ofNumber n := by
  have hstar : digits.toList ≠ ['*'] := by
    intro hstar
    have hdigit := h.isDigit '*' (hstar ▸ List.mem_cons_self)
    exact absurd hdigit (by decide)
  have hall : digits.toList.takeWhile Char.isDigit = digits.toList :=
    List.takeWhile_eq_self_iff.mpr h.isDigit
  have hnone : digits.toList.dropWhile Char.isDigit = [] :=
    List.dropWhile_eq_nil_iff.mpr h.isDigit
  rw [Part.ofText, if_neg hstar, splitNumber, hall, hnone, denotes_iff.mp h]
  rfl

end Numeral

theorem splitBy_join_dot {pieces : List (List Char)}
    (hdigits : ∀ piece ∈ pieces, ∀ c ∈ piece, c.isDigit = true) (hne : pieces ≠ []) :
    Text.splitBy (· == '.') (Text.join ['.'] pieces) = pieces := by
  refine Text.splitBy_join (by decide) (fun piece hpiece c hc => ?_) hne
  rw [beq_eq_false_iff_ne]
  rintro rfl
  exact absurd (hdigits piece hpiece '.' hc) (by decide)

section Components

variable {components : List String} {numbers : List Nat}

theorem forall_isDigit_of_denotes (h : List.Forall₂ Denotes components numbers) :
    ∀ piece ∈ components.map String.toList, ∀ c ∈ piece, c.isDigit = true := by
  induction h with
  | nil => exact fun piece hpiece => absurd hpiece List.not_mem_nil
  | cons hfirst _ ih => exact List.forall_mem_cons.mpr ⟨hfirst.isDigit, ih⟩

theorem map_ofText_of_denotes (h : List.Forall₂ Denotes components numbers) :
    (components.map String.toList).map Part.ofText = numbers.map Part.ofNumber := by
  induction h with
  | nil => rfl
  | cons hfirst _ ih =>
      rw [List.map_cons, List.map_cons, List.map_cons, hfirst.ofText, ih]

theorem toList_intercalate_dot (components : List String) :
    (".".intercalate components).toList = Text.join ['.'] (components.map String.toList) := by
  rw [String.toList_intercalate, Text.join_eq_intercalate]
  rfl

theorem not_isBlank_intercalate (h : List.Forall₂ Denotes components numbers) :
    ∀ c ∈ (".".intercalate components).toList, Text.isBlank c = false := by
  rw [toList_intercalate_dot]
  refine Text.forall_mem_join (by decide) fun piece hpiece c hc => ?_
  exact Text.isBlank_of_isDigit (forall_isDigit_of_denotes h piece hpiece c hc)

theorem parts_intercalate (h : List.Forall₂ Denotes components numbers) (hne : components ≠ []) :
    parts (".".intercalate components) = numbers.map Part.ofNumber := by
  rw [parts_eq, Text.trim_eq_self (not_isBlank_intercalate h), toList_intercalate_dot, partsOf,
    splitBy_join_dot (forall_isDigit_of_denotes h) (by simpa using hne), map_ofText_of_denotes h]

end Components

section Zeros

variable {version : String}

theorem parts_append_zero (hend : ∀ c ∈ version.toList.getLast?, Text.isBlank c = false) :
    parts (version ++ ".0") = parts version ++ [Part.zero] := by
  have htext : version ++ ".0" = version ++ "." ++ "0" := by
    rw [String.append_assoc]
    rfl
  rw [htext, parts_append_dot, parts_eq, Text.trim_eq_trimStart hend]
  rfl

theorem sameParts_append_zero (hend : ∀ c ∈ version.toList.getLast?, Text.isBlank c = false) :
    SameParts (version ++ ".0") version := by
  simp [sameParts_iff, partsTo, parts_append_zero hend, List.rightpad]

/-- However often a zero is appended to a version, it stays the same in the order. -/
theorem compare_iterate_zero (hend : ∀ c ∈ version.toList.getLast?, Text.isBlank c = false)
    (k : Nat) : compare ((· ++ ".0")^[k] version) version = .eq := by
  induction k generalizing version with
  | zero => exact Std.ReflCmp.compare_self
  | succ k ih =>
      have hzero : ∀ c ∈ (version ++ ".0").toList.getLast?, Text.isBlank c = false := by
        simp [show Text.isBlank '0' = false by decide]
      rw [Function.iterate_succ_apply, Std.TransCmp.congr_left (ih hzero)]
      exact compare_eq_eq_iff.mpr (sameParts_append_zero hend)

end Zeros

/-- Lists of numbers compare as parts as they do as numbers, zeros going on with the shorter one. -/
theorem compareParts_map_ofNumber {ms ns : List Nat} {n : Nat} (hm : ms.length ≤ n)
    (hn : ns.length ≤ n) :
    compareParts (ms.map Part.ofNumber) (ns.map Part.ofNumber) =
      List.compareLex Ord.compare (ms.rightpad n 0) (ns.rightpad n 0) := by
  have hpad : ∀ numbers : List Nat, (numbers.map Part.ofNumber).rightpad n .zero =
      (numbers.rightpad n 0).map Part.ofNumber := by
    intro numbers
    simp [List.rightpad, show Part.zero = Part.ofNumber 0 from rfl]
  have hmap : ∀ first second : List Nat,
      List.compareLex Part.compare (first.map Part.ofNumber) (second.map Part.ofNumber) =
        List.compareLex Ord.compare first second := by
    intro first second
    induction first generalizing second with
    | nil => cases second <;> rfl
    | cons a first ih =>
        cases second with
        | nil => rfl
        | cons b second =>
            rw [List.map_cons, List.map_cons, List.compareLex_cons_cons,
              List.compareLex_cons_cons, Part.compare_ofNumber, ih]
  rw [compareParts_eq_compareLex (by simpa using hm) (by simpa using hn), hpad, hpad, hmap]

/-- Plain versions compare as their lists of numbers do, the shorter one going on with zeros. So a
zero that is appended, however often, changes no comparison with any version. -/
theorem compare_plain {as bs : List String} {ms ns : List Nat}
    (ha : List.Forall₂ Denotes as ms) (hb : List.Forall₂ Denotes bs ns) (hane : as ≠ [])
    (hbne : bs ≠ []) :
    compare (".".intercalate as) (".".intercalate bs) =
      List.compareLex Ord.compare (ms.rightpad (max ms.length ns.length) 0)
        (ns.rightpad (max ms.length ns.length) 0) ∧
    ∀ (k : Nat) (other : String),
      compare ((· ++ ".0")^[k] (".".intercalate as)) other =
        compare (".".intercalate as) other ∧
      compare other ((· ++ ".0")^[k] (".".intercalate as)) =
        compare other (".".intercalate as) := by
  refine ⟨?_, fun k other => ?_⟩
  · rw [compare, parts_intercalate ha hane, parts_intercalate hb hbne]
    exact compareParts_map_ofNumber (le_max_left _ _) (le_max_right _ _)
  · have hsame := compare_iterate_zero
      (fun c hc => not_isBlank_intercalate ha c (List.mem_of_getLast? hc)) k
    exact ⟨Std.TransCmp.congr_left hsame, Std.TransCmp.congr_right hsame⟩

/-- Zeros in front and at the end make no difference, up to the largest number of a 64-bit word. -/
theorem compare_plain_largest :
    Denotes "007" 7 ∧ Denotes "18446744073709551614" 18446744073709551614 ∧
      Denotes "18446744073709551615" 18446744073709551615 ∧
      compare (".".intercalate ["007", "18446744073709551614"])
        (".".intercalate ["7", "18446744073709551615", "0"]) = .lt ∧
      compare (((· ++ ".0")^[2]) (".".intercalate ["007", "18446744073709551614"])) "7.*" =
        compare (".".intercalate ["007", "18446744073709551614"]) "7.*" := by
  have hseven : Denotes "007" 7 := denotes_iff.mpr (by decide +kernel)
  have hplain : Denotes "7" 7 := denotes_iff.mpr (by decide +kernel)
  have hzero : Denotes "0" 0 := denotes_iff.mpr (by decide +kernel)
  have hbelow : Denotes "18446744073709551614" 18446744073709551614 :=
    denotes_iff.mpr (by decide +kernel)
  have hlargest : Denotes "18446744073709551615" 18446744073709551615 :=
    denotes_iff.mpr (by decide +kernel)
  obtain ⟨hless, hzeros⟩ := compare_plain (.cons hseven (.cons hbelow .nil))
    (.cons hplain (.cons hlargest (.cons hzero .nil))) (List.cons_ne_nil _ _) (List.cons_ne_nil _ _)
  exact ⟨hseven, hbelow, hlargest, hless.trans (by decide +kernel), (hzeros 2 "7.*").1⟩

end Plain

end Version
end ExtensionLint
