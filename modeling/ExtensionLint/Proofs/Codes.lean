import ExtensionLint.Proofs.Normalization
import ExtensionLint.Proofs.Precedence
import ExtensionLint.Proofs.Run

/-!
Which phase a code comes from. Every rule reports codes of its own, classification has its codes, and
so have the images. So where a code belongs to one rule only, what a run reports under it is what that
rule does.
-/

namespace ExtensionLint

/-- Holds of findings that all have one of the given codes. -/
def OfCodes (codes : List Code) (findings : List Diagnostic) : Prop :=
  ∀ diagnostic ∈ findings, diagnostic.code ∈ codes

namespace OfCodes

variable {codes : List Code}

@[simp] theorem nil : OfCodes codes [] := fun _ h => absurd h List.not_mem_nil

@[simp] theorem singleton {diagnostic : Diagnostic} :
    OfCodes codes [diagnostic] ↔ diagnostic.code ∈ codes := by
  simp [OfCodes]

@[simp] theorem append {first second : List Diagnostic} :
    OfCodes codes (first ++ second) ↔ OfCodes codes first ∧ OfCodes codes second := by
  simp only [OfCodes, List.mem_append, or_imp, forall_and]

theorem flatMap {α : Type} {items : List α} {give : α → List Diagnostic}
    (h : ∀ item ∈ items, OfCodes codes (give item)) : OfCodes codes (items.flatMap give) := by
  intro diagnostic hdiagnostic
  obtain ⟨item, hitem, hgive⟩ := List.mem_flatMap.mp hdiagnostic
  exact h item hitem diagnostic hgive

theorem map {α : Type} {items : List α} {give : α → Diagnostic}
    (h : ∀ item ∈ items, (give item).code ∈ codes) : OfCodes codes (items.map give) := by
  intro diagnostic hdiagnostic
  obtain ⟨item, hitem, rfl⟩ := List.mem_map.mp hdiagnostic
  exact h item hitem

theorem ite {condition : Prop} [Decidable condition] {yes no : List Diagnostic}
    (hyes : OfCodes codes yes) (hno : OfCodes codes no) :
    OfCodes codes (if condition then yes else no) := by
  split
  · exact hyes
  · exact hno

theorem not_reported {findings : List Diagnostic} (hcodes : OfCodes codes findings) {code : Code}
    {file : Option String} (hcode : code ∉ codes) : ¬Reported findings code file := by
  rintro ⟨diagnostic, hdiagnostic, rfl, -⟩
  exact hcode (hcodes diagnostic hdiagnostic)

theorem getD {found : Option (List Diagnostic)} (h : ∀ findings ∈ found, OfCodes codes findings) :
    OfCodes codes (found.getD []) := by
  cases found with
  | none => exact nil
  | some findings => exact h findings rfl

end OfCodes

@[simp] theorem Diagnostic.code_withFile (diagnostic : Diagnostic) (file : String) :
    (diagnostic.withFile file).code = diagnostic.code := rfl

@[simp] theorem Diagnostic.code_withSeverity (diagnostic : Diagnostic) (severity : Severity) :
    (diagnostic.withSeverity severity).code = diagnostic.code := rfl

namespace RuleSetting

/-- The rules by name, in the order in which they run. -/
inductive Rule where
  | securityPolicy
  | background
  | contentScripts
  | dictionaries
  | updateUrl
  | maxVersion
  | homepage
  | restrictedPermissions
  | idPresent
  | hidden
  | idFormat
  | versionFormat
  | locales
  | compatibility
  deriving DecidableEq, Repr

namespace Rule

def all : List Rule :=
  [securityPolicy, background, contentScripts, dictionaries, updateUrl, maxVersion, homepage,
    restrictedPermissions, idPresent, hidden, idFormat, versionFormat, locales, compatibility]

theorem mem_all (rule : Rule) : rule ∈ all := by cases rule <;> decide

def check : Rule → RuleSetting → Manifest → List Diagnostic
  | securityPolicy => checkSecurityPolicy
  | background => checkBackground
  | contentScripts => checkContentScripts
  | dictionaries => checkDictionaries
  | updateUrl => checkUpdateUrl
  | maxVersion => checkMaxVersion
  | homepage => checkHomepage
  | restrictedPermissions => checkRestrictedPermissions
  | idPresent => checkIdPresent
  | hidden => checkHidden
  | idFormat => checkIdFormat
  | versionFormat => checkVersionFormat
  | locales => checkLocales
  | compatibility => checkCompatibility

def codes : Rule → List Code
  | securityPolicy => [.manifestCsp, .manifestCspUnsafeEval]
  | background => [.manifestBackgroundFileNotFound, .manifestFieldUnsupported]
  | contentScripts => [.manifestInvalidContent, .manifestContentScriptFileNotFound]
  | dictionaries => [.manifestDictMissingId, .manifestEmptyDicts, .manifestMultipleDicts,
      .manifestDictNotFound]
  | updateUrl => [.manifestUpdateUrl]
  | maxVersion => [.strictMaxVersion]
  | homepage => [.restrictedHomepageUrl]
  | restrictedPermissions => [.restrictedPermission]
  | idPresent => [.extensionIdRequired]
  | hidden => [.hiddenNoAction]
  | idFormat => [.propIdInvalid]
  | versionFormat => [.versionFormatInvalid, .versionFormatDeprecated]
  | locales => [.noDefaultLocale, .noMessagesFile, .noMessagesFileInLocales]
  | compatibility => [.keyFirefoxUnsupportedByMinVersion, .keyFirefoxAndroidUnsupportedByMinVersion,
      .permissionFirefoxUnsupportedByMinVersion, .permissionFirefoxAndroidUnsupportedByMinVersion]

/-- No two rules report the same code. -/
theorem eq_of_mem_codes {first second : Rule} {code : Code} (hfirst : code ∈ first.codes)
    (hsecond : code ∈ second.codes) : first = second := by
  have hdisjoint : ∀ first ∈ all, ∀ second ∈ all, ∀ code ∈ Code.all,
      code ∈ first.codes → code ∈ second.codes → first = second := by decide +kernel
  exact hdisjoint first first.mem_all second second.mem_all code code.mem_all hfirst hsecond

end Rule

theorem rules_eq : rules = Rule.all.map Rule.check := rfl

@[simp] theorem code_finding (setting : RuleSetting) (code : Code)
    (values : List (String × String)) : (setting.finding code values).code = code := rfl

variable (setting : RuleSetting) (manifest : Manifest)

theorem ofCodes_checkSecurityPolicy :
    OfCodes Rule.securityPolicy.codes (setting.checkSecurityPolicy manifest) := by
  have hcheck : ∀ policy property, OfCodes Rule.securityPolicy.codes
      (SecurityPolicy.check setting.catalog policy property) := by
    intro policy property
    exact OfCodes.append.mpr
      ⟨.ite (by simp [Rule.codes]) .nil, .ite (by simp [Rule.codes]) .nil⟩
  fun_cases checkSecurityPolicy setting manifest with
  | case1 policy hpolicy => exact hcheck _ _
  | case2 policies hpolicies =>
      refine .flatMap ?_
      rintro ⟨page, policy⟩ -
      cases policy with
      | string policy => exact hcheck _ _
      | _ => exact .nil
  | case3 => exact .nil

theorem ofCodes_backgroundFile (kind path : String) :
    OfCodes Rule.background.codes (setting.backgroundFile kind path) :=
  .ite .nil (by simp [Rule.codes])

theorem ofCodes_checkBackground :
    OfCodes Rule.background.codes (setting.checkBackground manifest) := by
  fun_cases checkBackground setting manifest with
  | case1 => exact .nil
  | case2 background hbackground =>
      refine OfCodes.append.mpr ⟨OfCodes.append.mpr ⟨?_, ?_⟩, ?_⟩
      · exact .flatMap fun path _ => setting.ofCodes_backgroundFile "script" path
      · refine .getD fun findings hfindings => ?_
        obtain ⟨path, -, rfl⟩ := Option.map_eq_some_iff.mp hfindings
        exact setting.ofCodes_backgroundFile "page" path
      · refine .getD fun findings hfindings => ?_
        obtain ⟨path, -, rfl⟩ := Option.map_eq_some_iff.mp hfindings
        exact .ite (by simp [Rule.codes]) (.ite (setting.ofCodes_backgroundFile _ _) .nil)

theorem ofCodes_checkContentScripts :
    OfCodes Rule.contentScripts.codes (setting.checkContentScripts manifest) := by
  refine .flatMap fun script _ => OfCodes.append.mpr ⟨.flatMap fun pattern _ => ?_, ?_⟩
  · fun_cases contentPattern setting pattern with
    | case1 => simp [Rule.codes]
    | case2 => exact .nil
  · exact .flatMap fun path _ => .ite .nil (by simp [Rule.codes])

def dictionaryFindings : List Diagnostic :=
  match (manifest.get? "dictionaries").bind Json.members? with
  | none => []
  | some dictionaries =>
      setting.dictionaryCount dictionaries.length ++
        (dictionaries.filterMap fun (_, path) => path.string?).flatMap setting.dictionaryFiles

theorem checkDictionaries_eq :
    setting.checkDictionaries manifest =
      if manifest.kind != .dictionary then []
      else (if manifest.addonId?.isNone then [setting.finding .manifestDictMissingId []] else []) ++
        setting.dictionaryFindings manifest := rfl

theorem ofCodes_dictionaryFindings :
    OfCodes [.manifestEmptyDicts, .manifestMultipleDicts, .manifestDictNotFound]
      (setting.dictionaryFindings manifest) := by
  rw [dictionaryFindings]
  split
  · exact .nil
  · next dictionaries _ =>
      refine OfCodes.append.mpr ⟨?_, .flatMap fun path _ => OfCodes.append.mpr ⟨?_, ?_⟩⟩
      · fun_cases dictionaryCount setting dictionaries.length with
        | case1 => simp
        | case2 => exact .nil
        | case3 => simp
      · exact .ite .nil (by simp)
      · exact .ite .nil (by simp)

theorem ofCodes_checkDictionaries :
    OfCodes Rule.dictionaries.codes (setting.checkDictionaries manifest) := by
  rw [checkDictionaries_eq]
  refine .ite .nil (OfCodes.append.mpr ⟨.ite (by simp [Rule.codes]) .nil, ?_⟩)
  exact fun diagnostic h =>
    List.mem_cons_of_mem _ (setting.ofCodes_dictionaryFindings manifest diagnostic h)

theorem ofCodes_checkUpdateUrl : OfCodes Rule.updateUrl.codes (setting.checkUpdateUrl manifest) := by
  refine .ite .nil ?_
  split <;> simp [Rule.codes]

theorem ofCodes_checkMaxVersion :
    OfCodes Rule.maxVersion.codes (setting.checkMaxVersion manifest) := by
  refine .ite .nil ?_
  split <;> simp [Rule.codes]

theorem ofCodes_checkHomepage : OfCodes Rule.homepage.codes (setting.checkHomepage manifest) := by
  fun_cases checkHomepage setting manifest with
  | case1 => simp [Rule.codes]
  | case2 => exact .nil

theorem ofCodes_checkRestrictedPermissions :
    OfCodes Rule.restrictedPermissions.codes (setting.checkRestrictedPermissions manifest) := by
  refine .flatMap fun permission _ => ?_
  fun_cases restrictedPermission setting (setting.minVersion? manifest) permission with
  | case1 => exact .nil
  | case2 => exact .nil
  | case3 => simp [Rule.codes]

theorem ofCodes_checkIdPresent : OfCodes Rule.idPresent.codes (setting.checkIdPresent manifest) :=
  .ite (by simp [Rule.codes]) .nil

theorem ofCodes_checkHidden : OfCodes Rule.hidden.codes (setting.checkHidden manifest) :=
  .ite (by simp [Rule.codes]) .nil

theorem ofCodes_checkIdFormat : OfCodes Rule.idFormat.codes (setting.checkIdFormat manifest) := by
  fun_cases checkIdFormat setting manifest with
  | case1 => exact .nil
  | case2 => simp [Rule.codes]
  | case3 => exact .nil

theorem ofCodes_checkVersionFormat :
    OfCodes Rule.versionFormat.codes (setting.checkVersionFormat manifest) := by
  fun_cases checkVersionFormat setting manifest with
  | case1 => exact .nil
  | case2 => exact .nil
  | case3 version _ _ code =>
      rw [OfCodes.singleton, code_finding]
      simp only [code]
      split <;> simp [Rule.codes]

theorem ofCodes_checkLocales : OfCodes Rule.locales.codes (setting.checkLocales manifest) := by
  rw [checkLocales]
  split
  · exact .ite .nil (by simp [Rule.codes])
  · exact OfCodes.append.mpr
      ⟨.ite .nil (by simp [Rule.codes]), .map fun locale _ => by simp [Rule.codes]⟩

def legacyCodes : List Code := [.ignoredApplicationsProperty, .applicationsDeprecated]

theorem ofCodes_checkLegacyShape :
    OfCodes legacyCodes (setting.checkLegacyShape manifest).toList := by
  rw [checkLegacyShape]
  cases manifest.legacyShape? with
  | none => exact .nil
  | some shape => cases shape <;> simp [legacyCodes]

theorem ofCodes_checkCompatibility :
    OfCodes Rule.compatibility.codes (setting.checkCompatibility manifest) := by
  have hcode : ∀ platform isPermission,
      Compatibility.code platform isPermission ∈ Rule.compatibility.codes := by
    intro platform isPermission
    cases platform <;> cases isPermission <;> simp [Compatibility.code, Rule.codes]
  have hfinding : ∀ platform minimum visit, OfCodes Rule.compatibility.codes
      (Compatibility.finding? setting.catalog platform minimum visit).toList := by
    intro platform minimum visit diagnostic hdiagnostic
    rw [Compatibility.code_of_finding? (Option.mem_toList.mp hdiagnostic)]
    exact hcode platform visit.isPermission
  exact .ite .nil (.flatMap fun visit _ => OfCodes.append.mpr ⟨hfinding _ _ _, hfinding _ _ _⟩)

theorem ofCodes_check (rule : Rule) : OfCodes rule.codes (rule.check setting manifest) := by
  cases rule with
  | securityPolicy => exact setting.ofCodes_checkSecurityPolicy manifest
  | background => exact setting.ofCodes_checkBackground manifest
  | contentScripts => exact setting.ofCodes_checkContentScripts manifest
  | dictionaries => exact setting.ofCodes_checkDictionaries manifest
  | updateUrl => exact setting.ofCodes_checkUpdateUrl manifest
  | maxVersion => exact setting.ofCodes_checkMaxVersion manifest
  | homepage => exact setting.ofCodes_checkHomepage manifest
  | restrictedPermissions => exact setting.ofCodes_checkRestrictedPermissions manifest
  | idPresent => exact setting.ofCodes_checkIdPresent manifest
  | hidden => exact setting.ofCodes_checkHidden manifest
  | idFormat => exact setting.ofCodes_checkIdFormat manifest
  | versionFormat => exact setting.ofCodes_checkVersionFormat manifest
  | locales => exact setting.ofCodes_checkLocales manifest
  | compatibility => exact setting.ofCodes_checkCompatibility manifest

theorem ofCodes_run : OfCodes (Rule.all.flatMap Rule.codes) (setting.run manifest) := by
  rw [run, rules_eq, List.flatMap_map]
  refine .flatMap fun rule hrule diagnostic hdiagnostic => ?_
  exact List.mem_flatMap.mpr ⟨rule, hrule, setting.ofCodes_check manifest rule diagnostic hdiagnostic⟩

/-- What the rules report under a code of a rule is what that rule reports. -/
theorem reported_run {rule : Rule} {code : Code} (hcode : code ∈ rule.codes) {file : Option String} :
    Reported (setting.run manifest) code file ↔ Reported (rule.check setting manifest) code file := by
  rw [run, rules_eq, List.flatMap_map, reported_flatMap]
  constructor
  · rintro ⟨other, -, diagnostic, hdiagnostic, rfl, rfl⟩
    have hother := setting.ofCodes_check manifest other diagnostic hdiagnostic
    obtain rfl := Rule.eq_of_mem_codes hcode hother
    exact ⟨diagnostic, hdiagnostic, rfl, rfl⟩
  · exact fun h => ⟨rule, rule.mem_all, h⟩

end RuleSetting

namespace Classifier

def codes : List Code :=
  [.jsonInvalid, .manifestFieldRequired, .manifestFieldInvalid, .manifestFieldDeprecated,
    .manifestThemeLwtAlias, .manifestFieldUnsupported, .manifestPermissionUnsupported,
    .applicationsInvalid, .manifestFieldPrivileged, .manifestPermissionsPrivileged,
    .privilegedFeaturesRequired, .mozillaAddonsPermissionRequired, .manifestBadPermission,
    .manifestBadOptionalPermission, .manifestBadHostPermission, .manifestPermissions,
    .manifestOptionalPermissions, .manifestHostPermissions, .manifestInstallOrigins]

theorem reservedCode_mem_codes (privileged : Bool) (listed : List String) {ordinary : Code}
    (hordinary : ordinary ∈ codes) : reservedCode privileged listed ordinary ∈ codes := by
  fun_cases reservedCode privileged listed ordinary with
  | case1 => decide
  | case2 => decide
  | case3 => exact hordinary

theorem badCode_mem_codes (list : PermissionList) : list.badCode ∈ codes := by
  cases list <;> decide

theorem itemCode_mem_codes (list : NameList) : list.itemCode ∈ codes := by
  cases list with
  | permissions list => cases list <;> decide
  | installOrigins => decide

theorem code_baseVerdict_mem_codes (classifier : Classifier) (issue : Issue) :
    (classifier.baseVerdict issue).code ∈ codes := by
  rw [baseVerdict]
  cases issue.kind with
  | deprecated =>
      cases hreplacement : Catalog.replacement? issue.pointer with
      | none => simp [codes]
      | some code =>
          obtain rfl := Catalog.eq_of_replacement? hreplacement
          simp [codes]
  | minManifestVersion | maxManifestVersion =>
      by_cases hpath : issue.path = [.key "applications"] <;> simp [hpath, codes]
  | privilegedPermissions listed =>
      by_cases htop : issue.IsBelow "permissions"
      · simp only [if_pos htop]
        exact reservedCode_mem_codes _ _ (by decide)
      · simp [htop, codes]
  | privileged listed => exact reservedCode_mem_codes _ _ (by decide)
  | _ => simp [codes]

theorem ofCodes_classifyAll (classifier : Classifier) (issues : List Issue) :
    OfCodes codes (classifier.classifyAll issues) := by
  intro diagnostic hdiagnostic
  obtain ⟨issue, -, hfound⟩ := List.mem_filterMap.mp hdiagnostic
  obtain ⟨row, hrow⟩ := classifier.exists_precedence issue
  have hcode : row.code ∈ codes := by
    cases hrow with
    | gatedItem h => simp [codes]
    | nonString hgate h => exact badCode_mem_codes _
    | item hgate hstring h => exact itemCode_mem_codes _
    | base hgate hstring hitem => exact classifier.code_baseVerdict_mem_codes issue
  rw [classify_eq_outcome, verdict_of_precedence hrow, outcome] at hfound
  split at hfound
  · cases hfound
  · obtain rfl := Option.some.inj hfound
    exact hcode

end Classifier

namespace Asset

/-- The codes about icons that are there. -/
def iconContentCodes : List Code :=
  [.wrongIconExtension, .corruptIconFile, .iconNotSquare, .iconSizeInvalid]

def iconCodes : List Code := .manifestIconNotFound :: iconContentCodes

/-- The codes about images of themes that are there. -/
def themeContentCodes : List Code :=
  [.manifestThemeImageWrongExt, .manifestThemeImageCorrupted, .manifestThemeImageWrongMime,
    .manifestThemeImageMimeMismatch]

def themeCodes : List Code := .manifestThemeImageNotFound :: themeContentCodes

namespace Checker

variable (checker : Checker)

@[simp] theorem code_finding (code : Code) (values : List (String × String)) (path : String) :
    (checker.finding code values path).code = code := rfl

variable {checker} in
theorem checkIcon_of_not_has {icon : IconReference} (h : checker.package.has icon.path = false) :
    checker.checkIcon icon =
      [checker.finding .manifestIconNotFound [("path", icon.path)] icon.path] := by
  simp [checkIcon, h]

theorem ofCodes_checkIcon_of_has {icon : IconReference} (h : checker.package.has icon.path = true) :
    OfCodes iconContentCodes (checker.checkIcon icon) := by
  simp only [checkIcon, h, Bool.not_true, Bool.false_eq_true, if_false]
  refine .ite (by simp [iconContentCodes]) ?_
  split
  · simp [iconContentCodes]
  · next info _ =>
      refine OfCodes.append.mpr ⟨.ite .nil ?_, ?_⟩
      · split <;> simp [iconContentCodes]
      · fun_cases sizeFindings checker icon info with
        | case1 => exact .nil
        | case2 => exact .nil
        | case3 => simp [iconContentCodes]

theorem ofCodes_checkIcon (icon : IconReference) : OfCodes iconCodes (checker.checkIcon icon) := by
  cases hhas : checker.package.has icon.path with
  | true => exact fun diagnostic h =>
      List.mem_cons_of_mem _ (checker.ofCodes_checkIcon_of_has hhas diagnostic h)
  | false =>
      rw [checkIcon_of_not_has hhas]
      simp [iconCodes]

variable {checker} in
theorem checkThemeImage_of_not_has {image : ThemeImageReference}
    (h : checker.package.has image.path = false) :
    checker.checkThemeImage image = [checker.finding .manifestThemeImageNotFound
      [("property", image.property), ("path", image.path)] image.path] := by
  simp [checkThemeImage, h]

theorem ofCodes_checkThemeImage_of_has {image : ThemeImageReference}
    (h : checker.package.has image.path = true) :
    OfCodes themeContentCodes (checker.checkThemeImage image) := by
  simp only [checkThemeImage, h, Bool.not_true, Bool.false_eq_true, if_false]
  split
  · simp [themeContentCodes]
  · split
    · simp [themeContentCodes]
    · exact .ite (by simp [themeContentCodes]) (.ite (by simp [themeContentCodes]) .nil)

theorem ofCodes_checkThemeImage (image : ThemeImageReference) :
    OfCodes themeCodes (checker.checkThemeImage image) := by
  cases hhas : checker.package.has image.path with
  | true => exact fun diagnostic h =>
      List.mem_cons_of_mem _ (checker.ofCodes_checkThemeImage_of_has hhas diagnostic h)
  | false =>
      rw [checkThemeImage_of_not_has hhas]
      simp [themeCodes]

end Checker
end Asset

/-- The codes of a rule come neither from the rule about the older key nor from images. -/
theorem RuleSetting.Rule.codes_apart (rule : Rule) {code : Code} (hcode : code ∈ rule.codes) :
    code ∉ legacyCodes ∧ code ∉ Asset.iconCodes ++ Asset.themeCodes := by
  have hall : ∀ rule ∈ all, ∀ code ∈ rule.codes,
      code ∉ legacyCodes ∧ code ∉ Asset.iconCodes ++ Asset.themeCodes := by decide +kernel
  exact hall rule rule.mem_all code hcode

namespace Linter

variable (linter : Linter) (context : LintContext) (package : Package) {document : Json}
  {manifest : Manifest} {code : Code} {file : Option String}

theorem reported_assetFindings :
    Reported (linter.assetFindings package manifest) code file ↔
      (∃ icon ∈ Asset.icons manifest,
        Reported ((linter.assetChecker package).checkIcon icon) code file) ∨
      manifest.kind = .staticTheme ∧ ∃ image ∈ Asset.themeImages manifest,
        Reported ((linter.assetChecker package).checkThemeImage image) code file := by
  rw [assetFindings, reported_append, reported_flatMap]
  by_cases hkind : manifest.kind = .staticTheme
  · rw [if_pos hkind, reported_flatMap]
    simp only [hkind, true_and]
  · rw [if_neg hkind]
    simp only [hkind, false_and, not_reported_nil]

theorem ofCodes_assetFindings :
    OfCodes (Asset.iconCodes ++ Asset.themeCodes) (linter.assetFindings package manifest) := by
  refine OfCodes.append.mpr ⟨?_, .ite ?_ .nil⟩
  · exact .flatMap fun icon _ diagnostic hdiagnostic => List.mem_append_left _
      (Asset.Checker.ofCodes_checkIcon _ icon diagnostic hdiagnostic)
  · exact .flatMap fun image _ diagnostic hdiagnostic => List.mem_append_right _
      (Asset.Checker.ofCodes_checkThemeImage _ image diagnostic hdiagnostic)

/-- What a run reports under a code that one rule alone reports is what that rule reports about the
normalized manifest. -/
theorem reported_log_of_rule (rule : RuleSetting.Rule) (hcode : code ∈ rule.codes)
    (hclassifier : code ∉ Classifier.codes) :
    Reported (linter.log context package document manifest).entries code file ↔
      Reported (rule.check (linter.ruleSetting context package) manifest.normalize) code file := by
  obtain ⟨hlegacy, hasset⟩ := rule.codes_apart hcode
  have hdocument : ¬Reported (linter.documentFindings context document manifest) code file :=
    (Classifier.ofCodes_classifyAll _ _).not_reported hclassifier
  have hshape : ¬Reported
      ((linter.ruleSetting context package).checkLegacyShape manifest).toList code file :=
    (RuleSetting.ofCodes_checkLegacyShape _ _).not_reported hlegacy
  have hassets : ¬Reported (linter.assetFindings package manifest.normalize) code file :=
    (linter.ofCodes_assetFindings package).not_reported hasset
  rw [reported_log, textFindings, ruleFindings, reported_append, reported_append,
    RuleSetting.reported_run _ _ hcode]
  simp only [hdocument, hshape, hassets, false_or, or_false]

/-- The codes of images come from no other phase. -/
theorem reported_log_of_asset (hcode : code ∈ Asset.iconCodes ++ Asset.themeCodes) :
    Reported (linter.log context package document manifest).entries code file ↔
      Reported (linter.assetFindings package manifest.normalize) code file := by
  have hothers : ∀ code ∈ Asset.iconCodes ++ Asset.themeCodes,
      code ∉ Classifier.codes ∧ code ∉ RuleSetting.legacyCodes ∧
        code ∉ RuleSetting.Rule.all.flatMap RuleSetting.Rule.codes := by decide +kernel
  obtain ⟨hclassifier, hlegacy, hrule⟩ := hothers code hcode
  have hdocument : ¬Reported (linter.documentFindings context document manifest) code file :=
    (Classifier.ofCodes_classifyAll _ _).not_reported hclassifier
  have hshape : ¬Reported
      ((linter.ruleSetting context package).checkLegacyShape manifest).toList code file :=
    (RuleSetting.ofCodes_checkLegacyShape _ _).not_reported hlegacy
  have hrules : ¬Reported
      ((linter.ruleSetting context package).run manifest.normalize) code file :=
    (RuleSetting.ofCodes_run _ _).not_reported hrule
  rw [reported_log, textFindings, ruleFindings, reported_append, reported_append]
  simp only [hdocument, hshape, hrules, false_or]

theorem reported_log_of_icon (hcode : code ∈ Asset.iconCodes) :
    Reported (linter.log context package document manifest).entries code file ↔
      ∃ icon ∈ Asset.icons manifest.normalize,
        Reported ((linter.assetChecker package).checkIcon icon) code file := by
  have htheme : code ∉ Asset.themeCodes :=
    (show ∀ code ∈ Asset.iconCodes, code ∉ Asset.themeCodes by decide) code hcode
  rw [linter.reported_log_of_asset context package (List.mem_append_left _ hcode),
    reported_assetFindings]
  constructor
  · rintro (hicon | ⟨-, image, -, himage⟩)
    · exact hicon
    · exact absurd himage ((Asset.Checker.ofCodes_checkThemeImage _ image).not_reported htheme)
  · exact Or.inl

theorem reported_log_of_themeImage (hcode : code ∈ Asset.themeCodes) :
    Reported (linter.log context package document manifest).entries code file ↔
      manifest.kind = .staticTheme ∧ ∃ image ∈ Asset.themeImages manifest.normalize,
        Reported ((linter.assetChecker package).checkThemeImage image) code file := by
  have hicon : code ∉ Asset.iconCodes :=
    (show ∀ code ∈ Asset.themeCodes, code ∉ Asset.iconCodes by decide) code hcode
  rw [linter.reported_log_of_asset context package (List.mem_append_right _ hcode),
    reported_assetFindings, Manifest.kind_normalize]
  constructor
  · rintro (⟨icon, -, hreported⟩ | himage)
    · exact absurd hreported ((Asset.Checker.ofCodes_checkIcon _ icon).not_reported hicon)
    · exact himage
  · exact Or.inr

end Linter
end ExtensionLint
