import ExtensionLint.Proofs.Codes
import Mathlib.Data.List.Basic

/-!
What a run reads of a manifest. The rules, the search for images and the metadata look at keys that
the schema knows; only the check against compatibility data goes through all of them. So manifests
that agree on the known keys, and are met by the same visits, get the same findings.
-/

namespace ExtensionLint

namespace Manifest

/-- The top-level keys that the schema of manifests knows. -/
def knownKeys : List String := Schema.manifestKeys.map Prod.fst

/-- Holds of manifests that have the same values for all known keys. -/
structure Agree (manifest other : Manifest) : Prop where
  version : manifest.version = other.version
  kind : manifest.kind = other.kind
  known : ∀ key ∈ knownKeys, manifest.get? key = other.get? key

namespace Agree

variable {manifest other : Manifest} (h : Agree manifest other)
include h

theorem string? (key : String) (hkey : key ∈ knownKeys) :
    manifest.string? key = other.string? key := by
  rw [Manifest.string?, Manifest.string?, h.known key hkey]

theorem has (key : String) (hkey : key ∈ knownKeys) :
    manifest.properties.has key = other.properties.has key :=
  congrArg Option.isSome (h.known key hkey)

theorem pointer? (pointer : String) (hpointer : ∀ tokens ∈ Json.Pointer.tokens? pointer,
      ∀ key ∈ tokens.head?, String.ofList key ∈ knownKeys) :
    manifest.pointer? pointer = other.pointer? pointer := by
  rw [Manifest.pointer?, Manifest.pointer?]
  match htokens : Json.Pointer.tokens? pointer with
  | some (key :: tokens) => simp only [h.known _ (hpointer _ htokens key rfl)]
  | some [] => rfl
  | none => rfl

theorem addonId? : manifest.addonId? = other.addonId? := by
  rw [Manifest.addonId?, Manifest.addonId?, stringAt?, stringAt?, h.pointer? _ (by decide)]

theorem minVersion? : manifest.minVersion? = other.minVersion? := by
  rw [Manifest.minVersion?, Manifest.minVersion?, stringAt?, stringAt?, h.pointer? _ (by decide)]

theorem androidMinVersion? : manifest.androidMinVersion? = other.androidMinVersion? := by
  rw [Manifest.androidMinVersion?, Manifest.androidMinVersion?, stringAt?, stringAt?,
    h.pointer? _ (by decide)]

theorem legacyShape? : manifest.legacyShape? = other.legacyShape? := by
  rw [Manifest.legacyShape?, Manifest.legacyShape?, h.version, h.has "applications" (by decide),
    h.has "browser_specific_settings" (by decide)]

theorem metadata : Metadata.ofManifest manifest = Metadata.ofManifest other := by
  have hpaths : Metadata.declaredPaths manifest = Metadata.declaredPaths other := by
    rw [Metadata.declaredPaths, Metadata.declaredPaths, h.known "experiment_apis" (by decide)]
  rw [Metadata.ofManifest, Metadata.ofManifest, h.addonId?, h.version, h.kind, h.minVersion?, hpaths,
    h.string? "name" (by decide), h.string? "version" (by decide)]

theorem icons : Asset.icons manifest = Asset.icons other := by
  have hactions : ∀ key ∈ Asset.actionKeys, manifest.get? key = other.get? key :=
    fun key hkey => h.known key (by revert key; decide)
  have hdeclarations : Asset.iconDeclarations manifest = Asset.iconDeclarations other := by
    rw [Asset.iconDeclarations, Asset.iconDeclarations, h.known "icons" (by decide)]
    congr 1
    exact List.flatMap_congr fun key hkey => by rw [hactions key hkey]
  rw [Asset.icons, Asset.icons, hdeclarations]

theorem themeImages : Asset.themeImages manifest = Asset.themeImages other := by
  rw [Asset.themeImages, Asset.themeImages, h.pointer? _ (by decide)]

end Agree

end Manifest

namespace RuleSetting

open Manifest (Agree)

variable (setting : RuleSetting) {manifest other : Manifest}

theorem minVersion?_congr (h : Agree manifest other) :
    setting.minVersion? manifest = setting.minVersion? other := by
  rw [minVersion?, minVersion?, h.minVersion?]

theorem checkBackground_congr (h : Agree manifest other) :
    setting.checkBackground manifest = setting.checkBackground other := by
  have hworker : setting.backgroundWorker manifest = setting.backgroundWorker other := by
    funext path
    rw [backgroundWorker, backgroundWorker, h.version]
  rw [checkBackground, checkBackground, h.known "background" (by decide), hworker]

theorem checkRestrictedPermissions_congr (h : Agree manifest other) :
    setting.checkRestrictedPermissions manifest = setting.checkRestrictedPermissions other := by
  have hlists : ∀ list ∈ restrictedLists, manifest.get? list = other.get? list :=
    fun list hlist => h.known list (by revert list; decide)
  rw [checkRestrictedPermissions, checkRestrictedPermissions, setting.minVersion?_congr h,
    List.flatMap_congr fun list hlist => congrArg Json.stringsOf (hlists list hlist)]

theorem checkHidden_congr (h : Agree manifest other) :
    setting.checkHidden manifest = setting.checkHidden other := by
  have hactions : ∀ key ∈ actionKeys, manifest.properties.has key = other.properties.has key :=
    fun key hkey => h.has key (by revert key; decide)
  have hany : actionKeys.any manifest.properties.has = actionKeys.any other.properties.has := by
    rw [Bool.eq_iff_iff, List.any_eq_true, List.any_eq_true]
    exact exists_congr fun key => and_congr_right fun hkey => by rw [hactions key hkey]
  rw [checkHidden, checkHidden, isHidden, isHidden, h.known "hidden" (by decide), hany]

/-- Every rule but that about compatibility looks at known keys only. -/
theorem check_congr {rule : Rule} (hrule : rule ≠ .compatibility) (h : Agree manifest other) :
    rule.check setting manifest = rule.check setting other := by
  cases rule with
  | securityPolicy =>
      simp only [Rule.check, checkSecurityPolicy, h.known policyProperty (by decide)]
  | background => exact setting.checkBackground_congr h
  | contentScripts =>
      simp only [Rule.check, checkContentScripts, h.known "content_scripts" (by decide)]
  | dictionaries =>
      simp only [Rule.check, checkDictionaries, h.kind, h.addonId?,
        h.known "dictionaries" (by decide)]
  | updateUrl =>
      simp only [Rule.check, checkUpdateUrl,
        h.pointer? "/applications/gecko/update_url" (by decide)]
  | maxVersion =>
      simp only [Rule.check, checkMaxVersion, h.kind,
        h.pointer? "/applications/gecko/strict_max_version" (by decide)]
  | homepage => simp only [Rule.check, checkHomepage, h.string? "homepage_url" (by decide)]
  | restrictedPermissions => exact setting.checkRestrictedPermissions_congr h
  | idPresent => simp only [Rule.check, checkIdPresent, h.version, h.addonId?]
  | hidden => exact setting.checkHidden_congr h
  | idFormat => simp only [Rule.check, checkIdFormat, h.addonId?]
  | versionFormat =>
      simp only [Rule.check, checkVersionFormat, h.version, h.string? "version" (by decide)]
  | locales => simp only [Rule.check, checkLocales, h.string? "default_locale" (by decide)]
  | compatibility => exact absurd rfl hrule

theorem checkCompatibility_congr (h : Agree manifest other)
    (hvisits : Compatibility.manifestVisits setting.compatibility manifest.properties =
      Compatibility.manifestVisits setting.compatibility other.properties) :
    setting.checkCompatibility manifest = setting.checkCompatibility other := by
  simp only [checkCompatibility, Compatibility.check, setting.minVersion?_congr h,
    h.androidMinVersion?, hvisits]

theorem run_congr (h : Agree manifest other)
    (hvisits : Compatibility.manifestVisits setting.compatibility manifest.properties =
      Compatibility.manifestVisits setting.compatibility other.properties) :
    setting.run manifest = setting.run other := by
  rw [run, run, rules_eq, List.flatMap_map, List.flatMap_map]
  refine List.flatMap_congr fun rule _ => ?_
  by_cases hrule : rule = .compatibility
  · rw [hrule]
    exact setting.checkCompatibility_congr h hvisits
  · exact setting.check_congr hrule h

end RuleSetting

namespace Linter

variable (linter : Linter) (context : LintContext) (package : Package) {document changed : Json}
  {manifest other : Manifest}

/-- Runs over manifests that agree on the known keys, raise the same issues and are met by the same
visits end in the same report. -/
theorem report_congr (hdeclared : manifest.Agree other)
    (hnormalized : manifest.normalize.Agree other.normalize)
    (hissues : linter.validate context.privileged document =
      linter.validate context.privileged changed)
    (hvisits : Compatibility.manifestVisits linter.compatibility manifest.normalize.properties =
      Compatibility.manifestVisits linter.compatibility other.normalize.properties) :
    linter.report context package document manifest =
      linter.report context package changed other := by
  have htext : linter.textFindings context package document manifest =
      linter.textFindings context package changed other := by
    have hrun := (linter.ruleSetting context package).run_congr hnormalized hvisits
    simp only [textFindings, documentFindings, classifier, ruleFindings, RuleSetting.checkLegacyShape,
      hdeclared.version, hdeclared.legacyShape?, hissues, hrun]
  have hassets : linter.assetFindings package manifest.normalize =
      linter.assetFindings package other.normalize := by
    simp only [assetFindings, hnormalized.icons, hnormalized.kind, hnormalized.themeImages]
  rw [report, report, log_eq, log_eq, htext, hassets, hnormalized.metadata]

end Linter

end ExtensionLint
