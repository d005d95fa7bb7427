import ExtensionLint.Proofs.Findings

/-!
What a report says about the identity and the version of an add-on, twice: in its metadata and by its
findings. Both come from the normalized manifest, and the codes of these findings belong to one rule
each, so a finding is there, once, exactly when the metadata show what it is about.
-/

namespace ExtensionLint

/-- The codes about the identifier and the version of an add-on. -/
def identityCodes : List Code :=
  [.extensionIdRequired, .manifestDictMissingId, .propIdInvalid, .versionFormatDeprecated,
    .versionFormatInvalid]

/-- Holds of the metadata that a finding of a code is about, given whether the add-on was signed
before. -/
inductive Metadata.Warrants (metadata : Metadata) (alreadySigned : Bool) : Code → Prop where
  /-- From manifest version 3 on an identifier is needed, unless it is known. -/
  | idRequired (hversion : 3 ≤ metadata.manifestVersion) (hid : metadata.id = none)
      (hsigned : alreadySigned = false) : Warrants metadata alreadySigned .extensionIdRequired
  | dictionaryId (hkind : metadata.kind = .dictionary) (hid : metadata.id = none) :
      Warrants metadata alreadySigned .manifestDictMissingId
  | idFormat {id} (hid : metadata.id = some id) (hinvalid : AddonId.isValid id = false) :
      Warrants metadata alreadySigned .propIdInvalid
  /-- The older form of versions is tolerated before manifest version 3. -/
  | olderVersion {version} (hversion : metadata.version = some version)
      (hinvalid : Version.isValid version = false) (hmanifest : metadata.manifestVersion < 3)
      (hform : Version.isToolkit version = true) :
      Warrants metadata alreadySigned .versionFormatDeprecated
  | versionFormat {version} (hversion : metadata.version = some version)
      (hinvalid : Version.isValid version = false)
      (hform : ¬(metadata.manifestVersion < 3 ∧ Version.isToolkit version = true)) :
      Warrants metadata alreadySigned .versionFormatInvalid

/-- Holds of findings that have one of a code where a condition holds, and none elsewhere. -/
structure OnceIff (code : Code) (condition : Prop) (findings : List Diagnostic) : Prop where
  atMostOnce : (withCode code findings).length ≤ 1
  occurs_iff : (∃ diagnostic ∈ findings, diagnostic.code = code) ↔ condition

namespace OnceIff

variable {code : Code} {condition : Prop} {first second : List Diagnostic}

theorem nil (h : ¬condition) : OnceIff code condition [] where
  atMostOnce := Nat.zero_le 1
  occurs_iff := by simp [h]

theorem singleton {diagnostic : Diagnostic} (h : diagnostic.code = code ↔ condition) :
    OnceIff code condition [diagnostic] where
  atMostOnce := by
    rw [length_withCode_singleton]
    split <;> omega
  occurs_iff := by simpa using h

theorem of_withCode (hsame : withCode code second = withCode code first)
    (h : OnceIff code condition first) : OnceIff code condition second where
  atMostOnce := hsame ▸ h.atMostOnce
  occurs_iff := by
    rw [← h.occurs_iff]
    simp only [← mem_withCode, hsame]

theorem of_perm (hperm : (withCode code second).Perm (withCode code first))
    (h : OnceIff code condition first) : OnceIff code condition second where
  atMostOnce := hperm.length_eq ▸ h.atMostOnce
  occurs_iff := by
    rw [← h.occurs_iff]
    simp only [← mem_withCode, hperm.mem_iff]

theorem append_of_codes {codes : List Code} (h : OnceIff code condition first)
    (hsecond : OfCodes codes second) (hcode : code ∉ codes) :
    OnceIff code condition (first ++ second) := by
  apply h.of_withCode
  rw [withCode_append, withCode_eq_nil hsecond hcode, List.append_nil]

end OnceIff

namespace RuleSetting

variable (setting : RuleSetting) (manifest : Manifest)

theorem onceIff_checkIdPresent :
    OnceIff .extensionIdRequired
      ((Metadata.ofManifest manifest).Warrants setting.context.alreadySigned .extensionIdRequired)
      (setting.checkIdPresent manifest) := by
  rw [checkIdPresent]
  split
  · next hmissing =>
      simp only [Bool.and_eq_true, decide_eq_true_eq, Option.isNone_iff_eq_none,
        Bool.not_eq_true'] at hmissing
      obtain ⟨⟨hversion, hid⟩, hsigned⟩ := hmissing
      exact .singleton (iff_of_true rfl (.idRequired hversion hid hsigned))
  · next hpresent =>
      refine .nil fun hwarrants => hpresent ?_
      cases hwarrants with
      | idRequired hversion hid hsigned =>
          have hmanifest : 3 ≤ manifest.version := hversion
          have hnone : manifest.addonId? = none := hid
          simp [hmanifest, hnone, hsigned]

theorem onceIff_checkDictionaries :
    OnceIff .manifestDictMissingId
      ((Metadata.ofManifest manifest).Warrants setting.context.alreadySigned .manifestDictMissingId)
      (setting.checkDictionaries manifest) := by
  rw [checkDictionaries_eq]
  by_cases hkind : manifest.kind = .dictionary
  · rw [if_neg (by simp [hkind])]
    refine OnceIff.append_of_codes ?_ (setting.ofCodes_dictionaryFindings manifest) (by decide)
    split
    · next hid =>
          exact .singleton (iff_of_true rfl (.dictionaryId hkind (Option.isNone_iff_eq_none.mp hid)))
    · next hid =>
        refine .nil fun hwarrants => hid ?_
        cases hwarrants with
        | dictionaryId _ hnone => exact Option.isNone_iff_eq_none.mpr hnone
  · rw [if_pos (by simpa using hkind)]
    refine .nil fun hwarrants => hkind ?_
    cases hwarrants with
    | dictionaryId hdictionary _ => exact hdictionary

theorem onceIff_checkIdFormat :
    OnceIff .propIdInvalid
      ((Metadata.ofManifest manifest).Warrants setting.context.alreadySigned .propIdInvalid)
      (setting.checkIdFormat manifest) := by
  fun_cases checkIdFormat setting manifest with
  | case1 id hid hvalid =>
      refine .nil fun hwarrants => ?_
      cases hwarrants with
      | idFormat hother hinvalid =>
          obtain rfl := Option.some.inj (hid.symm.trans hother)
          exact absurd (hvalid.symm.trans hinvalid) (by decide)
  | case2 id hid hinvalid =>
      exact .singleton (iff_of_true rfl (.idFormat hid (Bool.eq_false_iff.mpr hinvalid)))
  | case3 hid =>
      refine .nil fun hwarrants => ?_
      cases hwarrants with
      | idFormat hother _ => exact Option.some_ne_none _ (hother.symm.trans hid)

theorem onceIff_checkVersionFormat {code : Code} (hcode : code ∈ Rule.versionFormat.codes) :
    OnceIff code ((Metadata.ofManifest manifest).Warrants setting.context.alreadySigned code)
      (setting.checkVersionFormat manifest) := by
  fun_cases checkVersionFormat setting manifest with
  | case1 hversion =>
      refine .nil fun hwarrants => ?_
      cases hwarrants with
      | olderVersion hother _ _ _ | versionFormat hother _ _ =>
          exact Option.some_ne_none _ (hother.symm.trans hversion)
      | _ => exact absurd hcode (by decide)
  | case2 version hversion hvalid =>
      refine .nil fun hwarrants => ?_
      cases hwarrants with
      | olderVersion hother hinvalid _ _ | versionFormat hother hinvalid _ =>
          obtain rfl := Option.some.inj (hversion.symm.trans hother)
          exact absurd (hvalid.symm.trans hinvalid) (by decide)
      | _ => exact absurd hcode (by decide)
  | case3 version hversion hinvalid found =>
      have hinvalid := Bool.eq_false_iff.mpr hinvalid
      have hfound : found = if manifest.version < 3 ∧ Version.isToolkit version = true
          then .versionFormatDeprecated else .versionFormatInvalid := by simp [found]
      apply OnceIff.singleton
      rw [code_finding, hfound]
      by_cases holder : manifest.version < 3 ∧ Version.isToolkit version = true
      · rw [if_pos holder]
        constructor
        · rintro rfl
          exact .olderVersion hversion hinvalid holder.1 holder.2
        · intro hwarrants
          cases hwarrants with
          | olderVersion _ _ _ _ => rfl
          | versionFormat hother _ hform =>
              obtain rfl := Option.some.inj (hversion.symm.trans hother)
              exact absurd holder hform
          | _ => exact absurd hcode (by decide)
      · rw [if_neg holder]
        constructor
        · rintro rfl
          exact .versionFormat hversion hinvalid holder
        · intro hwarrants
          cases hwarrants with
          | versionFormat _ _ _ => rfl
          | olderVersion hother _ hmanifest hform =>
              obtain rfl := Option.some.inj (hversion.symm.trans hother)
              exact absurd ⟨hmanifest, hform⟩ holder
          | _ => exact absurd hcode (by decide)

/-- Each code about identity or version belongs to a rule, and the rule reports it where the metadata
warrant it. -/
theorem exists_onceIff_check {code : Code} (hcode : code ∈ identityCodes) :
    ∃ rule : Rule, code ∈ rule.codes ∧
      OnceIff code ((Metadata.ofManifest manifest).Warrants setting.context.alreadySigned code)
        (rule.check setting manifest) := by
  simp only [identityCodes, List.mem_cons, List.not_mem_nil, or_false] at hcode
  rcases hcode with rfl | rfl | rfl | rfl | rfl
  · exact ⟨.idPresent, by decide, setting.onceIff_checkIdPresent manifest⟩
  · exact ⟨.dictionaries, by decide, setting.onceIff_checkDictionaries manifest⟩
  · exact ⟨.idFormat, by decide, setting.onceIff_checkIdFormat manifest⟩
  · exact ⟨.versionFormat, by decide, setting.onceIff_checkVersionFormat manifest (by decide)⟩
  · exact ⟨.versionFormat, by decide, setting.onceIff_checkVersionFormat manifest (by decide)⟩

end RuleSetting

namespace Linter

variable (linter : Linter) (context : LintContext) (package : Package)

/-- The report of a document has the findings about identity and version that its metadata warrant,
each once, and no others of these codes. -/
theorem lint_identity (properties : Json.Members) :
    ∃ report metadata,
      linter.lint context package (.object properties) = .ok report ∧
      report.metadata = some metadata ∧
      ∀ code ∈ identityCodes,
        OnceIff code (metadata.Warrants context.alreadySigned code) report.diagnostics := by
  let setting := linter.ruleSetting context package
  let manifest := (Manifest.ofProperties properties).normalize
  refine ⟨_, Metadata.ofManifest manifest, linter.lint_object context package properties, rfl,
    fun code hcode => ?_⟩
  have hclassifier : code ∉ Classifier.codes :=
    (show ∀ code ∈ identityCodes, code ∉ Classifier.codes by decide) code hcode
  obtain ⟨rule, hrule, honce⟩ := setting.exists_onceIff_check manifest hcode
  apply honce.of_perm
  rw [← linter.withCode_log_of_rule context package hrule hclassifier]
  exact Report.perm_withCode_ofLog _ _

end Linter
end ExtensionLint
