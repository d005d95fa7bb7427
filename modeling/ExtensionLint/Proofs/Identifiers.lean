import ExtensionLint.Proofs.Filling
import ExtensionLint.Proofs.Splitting
import ExtensionLint.Proofs.TextSearch
import ExtensionLint.Rule.Identity

/-!
Identifiers of add-ons. An identifier has one of two forms: five groups of hexadecimal digits in
braces, or a name and a domain around a sign that neither may have. Cutting a text at hyphens and at
its first sign finds the parts of either form, and no text outside the two passes.
-/

namespace ExtensionLint.AddonId

/-- Holds of the hexadecimal digits, in letters of either case. -/
def HexDigit (c : Char) : Prop :=
  ('0' ≤ c ∧ c ≤ '9') ∨ ('a' ≤ c ∧ c ≤ 'f') ∨ ('A' ≤ c ∧ c ≤ 'F')

/-- Holds of the letters and digits of ASCII, the dot, the low line and the hyphen. -/
def NameChar (c : Char) : Prop :=
  ('A' ≤ c ∧ c ≤ 'Z') ∨ ('a' ≤ c ∧ c ≤ 'z') ∨ ('0' ≤ c ∧ c ≤ '9') ∨ c = '.' ∨ c = '_' ∨ c = '-'

instance (c : Char) : Decidable (HexDigit c) := by
  unfold HexDigit
  infer_instance

instance (c : Char) : Decidable (NameChar c) := by
  unfold NameChar
  infer_instance

/-- Holds of five groups of hexadecimal digits and the GUID that they make, in braces. -/
structure Guid (groups : List String) (id : String) : Prop where
  lengths : groups.map String.length = [8, 4, 4, 4, 12]
  digits : ∀ group ∈ groups, ∀ c ∈ group.toList, HexDigit c
  text : id = "\x7b" ++ "-".intercalate groups ++ "\x7d"

/-- Holds of a name, which may be empty, a domain, which may not, and the address of both. -/
structure Address (name domain id : String) : Prop where
  nameChars : ∀ c ∈ name.toList, NameChar c
  domainChars : ∀ c ∈ domain.toList, NameChar c
  nonempty : domain ≠ ""
  text : id = name ++ "@" ++ domain

section Characters

variable {c : Char}

theorem inRange_iff {low high : Char} :
    (decide (c.val ≥ low.val) && decide (c.val ≤ high.val)) = true ↔ low ≤ c ∧ c ≤ high := by
  rw [Bool.and_eq_true, decide_eq_true_eq, decide_eq_true_eq, Char.le_def, Char.le_def]

theorem isDigit_iff : c.isDigit = true ↔ '0' ≤ c ∧ c ≤ '9' := inRange_iff

theorem isUpper_iff : c.isUpper = true ↔ 'A' ≤ c ∧ c ≤ 'Z' := decide_eq_true_iff

theorem isLower_iff : c.isLower = true ↔ 'a' ≤ c ∧ c ≤ 'z' := inRange_iff

theorem isHexDigit_iff : Text.isHexDigit c = true ↔ HexDigit c := by
  rw [Text.isHexDigit, Text.hexValue?, HexDigit, ← isDigit_iff]
  by_cases hdigit : c.isDigit = true
  · simp [hdigit]
  · by_cases hsmall : 'a' ≤ c ∧ c ≤ 'f'
    · simp [hdigit, hsmall]
    · simp [hdigit, hsmall]

theorem isNameChar_iff : isNameChar c = true ↔ NameChar c := by
  have hletter : c.isAlphanum = ((c.isUpper || c.isLower) || c.isDigit) := rfl
  simp only [isNameChar, NameChar, hletter, Bool.or_eq_true, isUpper_iff, isLower_iff, isDigit_iff,
    decide_eq_true_eq, or_assoc]

theorem HexDigit.ne_hyphen (h : HexDigit c) : c ≠ '-' := by
  rintro rfl
  revert h
  decide

theorem NameChar.ne_sign (h : NameChar c) : c ≠ '@' := by
  rintro rfl
  revert h
  decide

end Characters

section Guid

variable {id : String} {groups : List String}

/-- A text is taken for a GUID if it is groups of digits of the right lengths, joined at hyphens,
between braces. -/
theorem isGuid_iff {s : List Char} :
    isGuid s = true ↔ ∃ pieces : List (List Char), pieces.map List.length = groupLengths ∧
      (∀ piece ∈ pieces, ∀ c ∈ piece, HexDigit c) ∧
      s = '{' :: (Text.join ['-'] pieces ++ ['}']) := by
  constructor
  · intro h
    rw [isGuid] at h
    split at h
    · cases h
    · next inner hinner =>
        obtain ⟨rest, hfront, hback⟩ := Option.bind_eq_some_iff.mp hinner
        rw [Text.stripFront?_eq_some_iff] at hfront
        rw [Text.stripBack?_eq_some_iff] at hback
        simp only [Bool.and_eq_true, decide_eq_true_eq, List.all_eq_true] at h
        obtain ⟨hlengths, hdigits⟩ := h
        refine ⟨_, hlengths, ?_, ?_⟩
        · exact fun piece hpiece c hc => isHexDigit_iff.mp (hdigits piece hpiece c hc)
        · rw [Text.join_splitBy fun c hc => beq_iff_eq.mp hc, hfront, hback]
          rfl
  · rintro ⟨pieces, hlengths, hdigits, rfl⟩
    have hpieces : Text.splitBy (· == '-') (Text.join ['-'] pieces) = pieces := by
      refine Text.splitBy_join (by decide) ?_ ?_
      · exact fun piece hpiece c hc => beq_eq_false_iff_ne.mpr (hdigits piece hpiece c hc).ne_hyphen
      · rintro rfl
        cases hlengths
    have hinner : (Text.stripFront? ['{'] ('{' :: (Text.join ['-'] pieces ++ ['}']))).bind
        (Text.stripBack? ['}']) = some (Text.join ['-'] pieces) :=
      Option.bind_eq_some_iff.mpr
        ⟨_, Text.stripFront?_eq_some_iff.mpr rfl, Text.stripBack?_eq_some_iff.mpr rfl⟩
    simp only [isGuid, hinner, hpieces, hlengths, Bool.and_eq_true, decide_true, List.all_eq_true,
      true_and]
    exact fun piece hpiece c hc => isHexDigit_iff.mpr (hdigits piece hpiece c hc)

theorem toList_braced (groups : List String) :
    ("\x7b" ++ "-".intercalate groups ++ "\x7d").toList =
      '{' :: (Text.join ['-'] (groups.map String.toList) ++ ['}']) := by
  rw [String.toList_append, String.toList_append, String.toList_intercalate,
    Text.join_eq_intercalate]
  rfl

theorem Guid.isGuid (h : Guid groups id) : isGuid id.toList = true := by
  refine isGuid_iff.mpr ⟨groups.map String.toList, ?_, ?_, ?_⟩
  · rw [List.map_map]
    exact h.lengths
  · exact List.forall_mem_map.mpr h.digits
  · rw [h.text, toList_braced]

theorem exists_guid_of_isGuid (h : AddonId.isGuid id.toList = true) : ∃ groups, Guid groups id := by
  obtain ⟨pieces, hlengths, hdigits, hid⟩ := isGuid_iff.mp h
  have hpieces : (pieces.map String.ofList).map String.toList = pieces := by
    rw [List.map_map]
    exact (List.map_congr_left fun _ _ => String.toList_ofList).trans (List.map_id _)
  refine ⟨pieces.map String.ofList, ?_, ?_, ?_⟩
  · rw [← hpieces, List.map_map] at hlengths
    exact hlengths
  · rw [← hpieces] at hdigits
    exact List.forall_mem_map.mp hdigits
  · rw [← String.toList_inj, toList_braced, hpieces, hid]

end Guid

section Address

variable {id name domain : String}

theorem toList_address (name domain : String) :
    (name ++ "@" ++ domain).toList = name.toList ++ '@' :: domain.toList := by
  rw [String.toList_append, String.toList_append, List.append_assoc]
  rfl

/-- The first sign of an address is the one between its name and its domain. -/
theorem Address.splitFirst_eq (h : Address name domain id) :
    Text.splitFirst '@' id.toList = some (name.toList, domain.toList) := by
  rw [Text.splitFirst_eq_some_iff, h.text]
  exact ⟨toList_address name domain, fun hsign => (h.nameChars _ hsign).ne_sign rfl⟩

theorem Address.isEmailLike (h : Address name domain id) : isEmailLike id.toList = true := by
  have hdomain : domain.toList ≠ [] := fun hnil => h.nonempty (String.toList_eq_nil_iff.mp hnil)
  simp only [AddonId.isEmailLike, h.splitFirst_eq, Bool.and_eq_true, Bool.not_eq_true',
    List.isEmpty_eq_false_iff, List.all_eq_true, isNameChar_iff]
  exact ⟨⟨hdomain, h.nameChars⟩, h.domainChars⟩

theorem exists_address_of_isEmailLike (h : AddonId.isEmailLike id.toList = true) :
    ∃ name domain, Address name domain id := by
  rw [AddonId.isEmailLike] at h
  split at h
  · cases h
  · next name domain hsplit =>
      simp only [Bool.and_eq_true, Bool.not_eq_true', List.isEmpty_eq_false_iff, List.all_eq_true,
        isNameChar_iff] at h
      obtain ⟨⟨hdomain, hname⟩, hchars⟩ := h
      obtain ⟨hid, -⟩ := Text.splitFirst_eq_some_iff.mp hsplit
      refine ⟨String.ofList name, String.ofList domain, ?_, ?_, ?_, ?_⟩
      · rwa [String.toList_ofList]
      · rwa [String.toList_ofList]
      · rwa [ne_eq, ← String.toList_eq_nil_iff, String.toList_ofList]
      · rw [← String.toList_inj, toList_address, String.toList_ofList, String.toList_ofList, hid]

theorem Address.count_sign (h : Address name domain id) : id.toList.count '@' = 1 := by
  have hname : name.toList.count '@' = 0 :=
    List.count_eq_zero.mpr fun hsign => (h.nameChars _ hsign).ne_sign rfl
  have hdomain : domain.toList.count '@' = 0 :=
    List.count_eq_zero.mpr fun hsign => (h.domainChars _ hsign).ne_sign rfl
  rw [h.text, toList_address, List.count_append, List.count_cons_self, hname, hdomain]

end Address

/-- A text is an identifier exactly if it is a GUID in braces or an address, and an address has exactly
one sign. -/
theorem isValid_iff_grammar (id : String) :
    (isValid id = true ↔ (∃ groups, Guid groups id) ∨ ∃ name domain, Address name domain id) ∧
    ((∃ name domain, Address name domain id) → id.toList.count '@' = 1) := by
  refine ⟨?_, fun ⟨_, _, h⟩ => h.count_sign⟩
  rw [isValid, Bool.or_eq_true]
  constructor
  · rintro (hguid | haddress)
    · exact .inl (exists_guid_of_isGuid hguid)
    · exact .inr (exists_address_of_isEmailLike haddress)
  · rintro (⟨groups, hguid⟩ | ⟨name, domain, haddress⟩)
    · exact .inl hguid.isGuid
    · exact .inr haddress.isEmailLike

/-- Digits of either case make a GUID, and the name of an address may be empty. -/
theorem isValid_iff_grammar_emptyName :
    Guid ["12345678", "ABCD", "ef01", "2345", "6789abcdef01"]
      "\x7b12345678-ABCD-ef01-2345-6789abcdef01\x7d" ∧
    isValid "\x7b12345678-ABCD-ef01-2345-6789abcdef01\x7d" = true ∧
    Address "" "example" "@example" ∧ isValid "@example" = true ∧
    "@example".toList.count '@' = 1 := by
  have hdigits : ∀ group ∈ ["12345678", "ABCD", "ef01", "2345", "6789abcdef01"],
      ∀ c ∈ group.toList, HexDigit c := by
    have hall : (["12345678", "ABCD", "ef01", "2345", "6789abcdef01"].all fun group =>
      group.toList.all Text.isHexDigit) = true := by decide +kernel
    simpa only [List.all_eq_true, isHexDigit_iff] using hall
  have hdomain : ∀ c ∈ "example".toList, NameChar c := by
    have hall : "example".toList.all isNameChar = true := by decide +kernel
    simpa only [List.all_eq_true, isNameChar_iff] using hall
  have hguid : Guid ["12345678", "ABCD", "ef01", "2345", "6789abcdef01"]
      "\x7b12345678-ABCD-ef01-2345-6789abcdef01\x7d" := ⟨by decide, hdigits, by decide +kernel⟩
  have haddress : Address "" "example" "@example" :=
    ⟨by simp, hdomain, by decide, by decide +kernel⟩
  obtain ⟨hvalid, -⟩ := isValid_iff_grammar "\x7b12345678-ABCD-ef01-2345-6789abcdef01\x7d"
  obtain ⟨haccepted, hsign⟩ := isValid_iff_grammar "@example"
  exact ⟨hguid, hvalid.mpr (.inl ⟨_, hguid⟩), haddress, haccepted.mpr (.inr ⟨_, _, haddress⟩),
    hsign ⟨_, _, haddress⟩⟩

end ExtensionLint.AddonId
