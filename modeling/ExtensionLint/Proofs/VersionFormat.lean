import ExtensionLint.Package.Memory
import ExtensionLint.Proofs.Findings
import ExtensionLint.Proofs.VersionNumbers

/-!
The format of versions. A well-formed version is the text of one to four numbers below 10⁹, each in
the digits that it is printed with, and no other list of numbers has that text. The older format
admits each of these texts, so the rule about the format is silent on them and has one finding on
every other version, the older format deciding which.
-/

namespace ExtensionLint

namespace Version

/-- Holds of one to four numbers below 10⁹ and their text, with dots between the printed numbers. -/
structure Writes (numbers : List Nat) (version : String) : Prop where
  atLeastOne : 1 ≤ numbers.length
  atMostFour : numbers.length ≤ 4
  small : ∀ n ∈ numbers, n < 10 ^ 9
  text : version = ".".intercalate (numbers.map Nat.repr)

section Numeral

variable {s : List Char}

theorem isNumeral_iff :
    isNumeral s = true ↔ s ≠ [] ∧ s.length ≤ mostDigits ∧ (∀ c ∈ s, c.isDigit = true) ∧
      (s = ['0'] ∨ s.head? ≠ some '0') := by
  simp only [isNumeral, Bool.and_eq_true, Bool.or_eq_true, Bool.not_eq_true',
    List.isEmpty_eq_false_iff, decide_eq_true_eq, List.all_eq_true, bne_iff_ne, and_assoc]

/-- A canonical numeral consists of the digits of the number that it denotes. -/
theorem toDigits_of_isNumeral (h : isNumeral s = true) :
    Nat.toDigits 10 (Text.decimalValue s) = s ∧ Text.decimalValue s < 10 ^ 9 := by
  obtain ⟨hne, hlength, hdigits, hlead⟩ := isNumeral_iff.mp h
  cases s with
  | nil => exact absurd rfl hne
  | cons c s =>
      have hzero : c ≠ '0' ∨ s = [] := by
        rcases hlead with hzero | hfirst
        · exact .inr (List.cons.inj hzero).2
        · exact .inl fun hc => hfirst (by rw [hc, List.head?_cons])
      have hprinted := Text.toDigits_decimalValue hdigits hzero
      refine ⟨hprinted, (Nat.length_toDigits_le_iff (by decide) (by decide)).mp ?_⟩
      rwa [hprinted]

theorem isNumeral_toDigits {n : Nat} (h : n < 10 ^ 9) : isNumeral (Nat.toDigits 10 n) = true := by
  have hlength : (Nat.toDigits 10 n).length ≤ mostDigits :=
    (Nat.length_toDigits_le_iff (by decide) (by decide)).mpr h
  have hlead : Nat.toDigits 10 n = ['0'] ∨ (Nat.toDigits 10 n).head? ≠ some '0' := by
    rcases Nat.eq_zero_or_pos n with rfl | hpos
    · exact .inl rfl
    · obtain ⟨c, rest, hdigits, hc⟩ := Text.exists_cons_toDigits hpos
      rw [hdigits, List.head?_cons]
      exact .inr fun hzero => hc (Option.some.inj hzero)
  exact isNumeral_iff.mpr
    ⟨Nat.toDigits_ne_nil, hlength, fun _ => Text.isDigit_of_mem_toDigits, hlead⟩

theorem isToolkitPart_of_isNumeral (h : isNumeral s = true) : isToolkitPart s = true := by
  obtain ⟨hne, -, hdigits, -⟩ := isNumeral_iff.mp h
  have hchars : s.all isToolkitChar = true := by
    rw [List.all_eq_true]
    intro c hc
    simp [isToolkitChar, Char.isAlphanum, hdigits c hc]
  cases s with
  | nil => exact absurd rfl hne
  | cons c s =>
      have hfirst := hdigits c List.mem_cons_self
      rw [isToolkitPart, hchars, List.head?_cons, Option.any_some, hfirst]
      rfl

end Numeral

section Written

variable {version : String} {numbers others : List Nat}

theorem isValid_iff :
    isValid version = true ↔
      (Text.splitBy (· == '.') version.toList).length ≤ mostParts ∧
        ∀ piece ∈ Text.splitBy (· == '.') version.toList, isNumeral piece = true := by
  simp only [isValid, Bool.and_eq_true, decide_eq_true_eq, List.all_eq_true]

theorem toList_intercalate_repr (numbers : List Nat) :
    (".".intercalate (numbers.map Nat.repr)).toList =
      Text.join ['.'] (numbers.map (Nat.toDigits 10)) := by
  have hdigits : String.toList ∘ Nat.repr = Nat.toDigits 10 := by
    funext n
    exact Nat.toList_repr
  rw [toList_intercalate_dot, List.map_map, hdigits]

/-- The pieces of a written version are the digits of its numbers. -/
theorem Writes.pieces (h : Writes numbers version) :
    Text.splitBy (· == '.') version.toList = numbers.map (Nat.toDigits 10) := by
  have hdigits : ∀ piece ∈ numbers.map (Nat.toDigits 10), ∀ c ∈ piece, c.isDigit = true := by
    intro piece hpiece c hc
    obtain ⟨n, -, rfl⟩ := List.mem_map.mp hpiece
    exact Text.isDigit_of_mem_toDigits hc
  have hne : numbers.map (Nat.toDigits 10) ≠ [] := by
    rw [ne_eq, List.map_eq_nil_iff]
    exact List.ne_nil_of_length_pos h.atLeastOne
  rw [h.text, toList_intercalate_repr, splitBy_join_dot hdigits hne]

theorem Writes.unique (h : Writes numbers version) (hothers : Writes others version) :
    numbers = others := by
  have hvalues : ∀ list : List Nat, (list.map (Nat.toDigits 10)).map Text.decimalValue = list := by
    intro list
    rw [List.map_map]
    exact (List.map_congr_left fun n _ => Text.decimalValue_toDigits n).trans (List.map_id list)
  rw [← hvalues numbers, ← hvalues others, ← h.pieces, ← hothers.pieces]

theorem Writes.isValid (h : Writes numbers version) : isValid version = true := by
  rw [isValid_iff, h.pieces, List.length_map]
  refine ⟨h.atMostFour, fun piece hpiece => ?_⟩
  obtain ⟨n, hn, rfl⟩ := List.mem_map.mp hpiece
  exact isNumeral_toDigits (h.small n hn)

/-- A well-formed version is the text of the numbers that its pieces denote. -/
theorem writes_of_isValid (h : Version.isValid version = true) :
    Writes ((Text.splitBy (· == '.') version.toList).map Text.decimalValue) version := by
  obtain ⟨hlength, hnumerals⟩ := isValid_iff.mp h
  refine ⟨?_, by rwa [List.length_map], ?_, ?_⟩
  · rw [List.length_map]
    exact List.length_pos_iff.mpr (Text.splitBy_ne_nil _ _)
  · intro n hn
    obtain ⟨piece, hpiece, rfl⟩ := List.mem_map.mp hn
    exact (toDigits_of_isNumeral (hnumerals piece hpiece)).2
  · have hpieces : ((Text.splitBy (· == '.') version.toList).map Text.decimalValue).map
        (Nat.toDigits 10) = Text.splitBy (· == '.') version.toList := by
      rw [List.map_map]
      refine (List.map_congr_left fun piece hpiece => ?_).trans (List.map_id _)
      exact (toDigits_of_isNumeral (hnumerals piece hpiece)).1
    rw [← String.toList_inj, toList_intercalate_repr, hpieces,
      Text.join_splitBy fun c hc => beq_iff_eq.mp hc]

theorem isValid_iff_exists_writes :
    Version.isValid version = true ↔ ∃ numbers, Writes numbers version :=
  ⟨fun h => ⟨_, writes_of_isValid h⟩, fun ⟨_, h⟩ => h.isValid⟩

theorem isToolkit_of_isValid (h : Version.isValid version = true) : isToolkit version = true := by
  obtain ⟨hlength, hnumerals⟩ := isValid_iff.mp h
  simp only [isToolkit, Bool.and_eq_true, decide_eq_true_eq, List.all_eq_true]
  exact ⟨hlength, fun piece hpiece => isToolkitPart_of_isNumeral (hnumerals piece hpiece)⟩

end Written

end Version

namespace RuleSetting

variable {setting : RuleSetting} {manifest : Manifest} {version : String}

theorem checkVersionFormat_of_isValid (hversion : manifest.string? "version" = some version)
    (h : Version.isValid version = true) : setting.checkVersionFormat manifest = [] := by
  simp only [checkVersionFormat, hversion]
  rw [if_pos h]

theorem checkVersionFormat_of_not_isValid (hversion : manifest.string? "version" = some version)
    (h : Version.isValid version ≠ true) :
    setting.checkVersionFormat manifest =
      [setting.finding (if manifest.version < 3 ∧ Version.isToolkit version = true
        then .versionFormatDeprecated else .versionFormatInvalid) [("version", version)]] := by
  simp only [checkVersionFormat, hversion]
  rw [if_neg h]
  simp

/-- Well-formed versions are the texts of one to four numbers below 10⁹, each of one list of numbers,
and the older format admits them all. So under every manifest version the rule is silent on exactly
these texts, and on every other text it has one finding: that the format is out of date, where the
manifest is older than version 3 and the text has the older format, or else that it is no format. -/
theorem checkVersionFormat_written :
    (∀ version, Version.isValid version = true ↔ ∃ numbers, Version.Writes numbers version) ∧
    (∀ version numbers others, Version.Writes numbers version → Version.Writes others version →
      numbers = others) ∧
    (∀ version, Version.isValid version = true → Version.isToolkit version = true) ∧
    ∀ (setting : RuleSetting) (manifest : Manifest) (version : String),
      manifest.string? "version" = some version →
      (setting.checkVersionFormat manifest = [] ↔ ∃ numbers, Version.Writes numbers version) ∧
      ((¬∃ numbers, Version.Writes numbers version) →
        ∃ finding, setting.checkVersionFormat manifest = [finding] ∧
          (finding.code = .versionFormatDeprecated ∨ finding.code = .versionFormatInvalid) ∧
          (finding.code = .versionFormatDeprecated ↔
            manifest.version < 3 ∧ Version.isToolkit version = true)) := by
  refine ⟨fun version => Version.isValid_iff_exists_writes, fun version numbers others h hothers =>
    h.unique hothers, fun version => Version.isToolkit_of_isValid, ?_⟩
  intro setting manifest version hversion
  rw [← Version.isValid_iff_exists_writes]
  refine ⟨⟨fun hsilent => ?_, checkVersionFormat_of_isValid hversion⟩, fun hinvalid => ?_⟩
  · by_contra hinvalid
    rw [checkVersionFormat_of_not_isValid hversion hinvalid] at hsilent
    cases hsilent
  · refine ⟨_, checkVersionFormat_of_not_isValid hversion hinvalid, ?_⟩
    rw [code_finding]
    by_cases holder : manifest.version < 3 ∧ Version.isToolkit version = true
    · simp [holder]
    · simp [holder]

/-- A numeral of nine digits and a zero are well-formed; a zero in front has the older format. -/
theorem checkVersionFormat_written_zero :
    let setting : RuleSetting :=
      ⟨.standard, .standard, .empty, .standard, MemoryPackage.empty.toPackage⟩
    let declaring := fun version : String => Manifest.ofProperties [("version", .string version)]
    Version.Writes [0, 999999999] "0.999999999" ∧
      (∀ others, Version.Writes others "0.999999999" → others = [0, 999999999]) ∧
      Version.isToolkit "0.999999999" = true ∧
      (declaring "0.999999999").string? "version" = some "0.999999999" ∧
      setting.checkVersionFormat (declaring "0.999999999") = [] ∧
      (declaring "00.1").string? "version" = some "00.1" ∧
      (¬∃ numbers, Version.Writes numbers "00.1") ∧
      ∃ finding, setting.checkVersionFormat (declaring "00.1") = [finding] ∧
        finding.code = .versionFormatDeprecated := by
  intro setting declaring
  obtain ⟨hvalid, hunique, htoolkit, hrule⟩ := checkVersionFormat_written
  have hwrites : Version.Writes [0, 999999999] "0.999999999" :=
    ⟨by decide, by decide, by decide, by decide +kernel⟩
  have hnone : ¬∃ numbers, Version.Writes numbers "00.1" := by
    rw [← hvalid]
    decide +kernel
  obtain ⟨hsilent, -⟩ := hrule setting (declaring "0.999999999") "0.999999999" rfl
  obtain ⟨-, hfinding⟩ := hrule setting (declaring "00.1") "00.1" rfl
  obtain ⟨finding, honly, -, hcode⟩ := hfinding hnone
  exact ⟨hwrites, fun others hothers => hunique _ _ _ hothers hwrites,
    htoolkit _ ((hvalid _).mpr ⟨_, hwrites⟩), rfl, hsilent.mpr ⟨_, hwrites⟩, rfl, hnone, finding,
    honly, hcode.mpr ⟨by decide, by decide +kernel⟩⟩

end RuleSetting
end ExtensionLint
