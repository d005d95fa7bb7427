import ExtensionLint.Proofs.Codes
import ExtensionLint.Proofs.References

/-!
Missing files. For each role, the findings that a file is missing are about the canonical paths of
the references that lead to nothing, and there is one for each of them.
-/

namespace ExtensionLint

def FileRole.missingCode : FileRole → Code
  | .background => .manifestBackgroundFileNotFound
  | .contentScript => .manifestContentScriptFileNotFound
  | .dictionary => .manifestDictNotFound
  | .icon => .manifestIconNotFound
  | .themeImage => .manifestThemeImageNotFound

/-- A finding about a file that is made unless the file is there. -/
theorem reported_unless {there : Bool} {diagnostic : Diagnostic} {path : String} {code : Code}
    {file : Option String} (hcode : diagnostic.code = code) :
    Reported (if there then [] else [diagnostic.withFile path]) code file ↔
      there = false ∧ file = some path := by
  cases there with
  | true => simp [not_reported_nil]
  | false => simp [reported_singleton, hcode, Diagnostic.withFile, @eq_comm _ file]

theorem reported_getD_map {α : Type} {found : Option α} {give : α → List Diagnostic} {code : Code}
    {file : Option String} :
    Reported ((found.map give).getD []) code file ↔
      ∃ a, found = some a ∧ Reported (give a) code file := by
  cases found with
  | none => simp [not_reported_nil]
  | some a => simp

/-- Holds of the canonical paths of those references that lead to nothing. -/
def Package.Misses (package : Package) (refers : String → Prop) (file : Option String) : Prop :=
  ∃ path, refers path ∧ package.has path = false ∧ file = some (PackagePath.normalize path)

/-- Collected items at canonical paths that lead to nothing stand for references that lead to
nothing. -/
theorem Package.misses_of_canonical {α : Type} {package : Package} (hpackage : package.Stored)
    {refers : String → Prop} {items : List α} {view : α → String} {file : Option String}
    (hitems : ∀ {path}, path ∈ items.map view ↔ ∃ declared, refers declared ∧
      PackagePath.normalize declared = path) :
    package.Misses refers file ↔
      ∃ item ∈ items, package.has (view item) = false ∧ file = some (view item) := by
  constructor
  · rintro ⟨declared, hdeclared, hhas, hfile⟩
    obtain ⟨item, hitem, hview⟩ := List.mem_map.mp (hitems.mpr ⟨declared, hdeclared, rfl⟩)
    exact ⟨item, hitem, by rw [hview, hpackage.has_normalize, hhas], by rw [hview, hfile]⟩
  · rintro ⟨item, hitem, hhas, hfile⟩
    obtain ⟨declared, hdeclared, hview⟩ := hitems.mp (List.mem_map_of_mem hitem)
    rw [← hview, hpackage.has_normalize] at hhas
    exact ⟨declared, hdeclared, hhas, by rw [hview, hfile]⟩

namespace RuleSetting

variable {setting : RuleSetting} (hpackage : setting.package.Stored) {manifest : Manifest}
  {file : Option String}

include hpackage

theorem has_eq (path : String) : setting.has path = setting.package.has path :=
  hpackage.has_normalize path

theorem reported_backgroundFile {kind path : String} :
    Reported (setting.backgroundFile kind path) .manifestBackgroundFileNotFound file ↔
      setting.package.has path = false ∧ file = some (PackagePath.normalize path) := by
  rw [← has_eq hpackage]
  exact reported_unless rfl

theorem reported_backgroundWorker {path : String} :
    Reported (setting.backgroundWorker manifest path) .manifestBackgroundFileNotFound file ↔
      setting.context.backgroundServiceWorker = true ∧ 3 ≤ manifest.version ∧
        setting.package.has path = false ∧ file = some (PackagePath.normalize path) := by
  rw [backgroundWorker]
  cases setting.context.backgroundServiceWorker with
  | false => simp [reported_singleton]
  | true =>
      by_cases hversion : 3 ≤ manifest.version
      · simp [hversion, reported_backgroundFile hpackage]
      · simp [hversion, not_reported_nil]

theorem reported_checkBackground :
    Reported (setting.checkBackground manifest) .manifestBackgroundFileNotFound file ↔
      setting.package.Misses (manifest.References setting.context .background) file := by
  simp only [Package.Misses, Manifest.references_background]
  rw [checkBackground]
  cases hbackground : manifest.get? "background" with
  | none => simp [not_reported_nil]
  | some background =>
      rw [reported_append, reported_append, reported_flatMap, reported_getD_map, reported_getD_map]
      simp only [Json.mem_stringsOf, Option.bind_eq_some_iff, Json.string?_eq_some,
        reported_backgroundFile hpackage, reported_backgroundWorker hpackage, exists_eq_right,
        Option.some.injEq, exists_eq_left']
      constructor
      · rintro ((⟨path, hscript, hmissing⟩ | ⟨path, hpage, hmissing⟩) |
          ⟨path, hworker, haccepted, hversion, hmissing⟩)
        · exact ⟨path, .inl hscript, hmissing⟩
        · exact ⟨path, .inr (.inl hpage), hmissing⟩
        · exact ⟨path, .inr (.inr ⟨hworker, haccepted, hversion⟩), hmissing⟩
      · rintro ⟨path, hscript | hpage | ⟨hworker, haccepted, hversion⟩, hmissing⟩
        · exact .inl (.inl ⟨path, hscript, hmissing⟩)
        · exact .inl (.inr ⟨path, hpage, hmissing⟩)
        · exact .inr ⟨path, hworker, haccepted, hversion, hmissing⟩

theorem reported_contentFile {path : String} :
    Reported (setting.contentFile path) .manifestContentScriptFileNotFound file ↔
      setting.package.has path = false ∧ file = some (PackagePath.normalize path) := by
  rw [← has_eq hpackage]
  exact reported_unless rfl

omit hpackage in
theorem not_reported_contentPattern (pattern : String) :
    ¬Reported (setting.contentPattern pattern) .manifestContentScriptFileNotFound file := by
  fun_cases contentPattern setting pattern with
  | case1 => simp [reported_singleton]
  | case2 => exact not_reported_nil

theorem reported_checkContentScripts :
    Reported (setting.checkContentScripts manifest) .manifestContentScriptFileNotFound file ↔
      setting.package.Misses (manifest.References setting.context .contentScript) file := by
  rw [checkContentScripts, reported_flatMap]
  simp only [contentScript, reported_append, reported_flatMap, not_reported_contentPattern,
    reported_contentFile hpackage, and_false, exists_const, false_or, List.mem_append,
    Json.mem_stringsOf, Json.mem_getD_items]
  constructor
  · rintro ⟨script, ⟨scripts, hscripts, hscript⟩, path, hfiles, hmissing⟩
    rcases hfiles with ⟨files, hfiles, hpath⟩ | ⟨files, hfiles, hpath⟩
    · exact ⟨path, .contentScript hscripts hscript (.inl rfl) hfiles hpath, hmissing⟩
    · exact ⟨path, .contentScript hscripts hscript (.inr rfl) hfiles hpath, hmissing⟩
  · rintro ⟨path, href, hmissing⟩
    cases href with
    | contentScript hscripts hscript hkey hfiles hpath =>
        refine ⟨_, ⟨_, hscripts, hscript⟩, path, ?_, hmissing⟩
        rcases hkey with rfl | rfl
        · exact .inl ⟨_, hfiles, hpath⟩
        · exact .inr ⟨_, hfiles, hpath⟩

theorem reported_dictionaryFiles {path : String} :
    Reported (setting.dictionaryFiles path) .manifestDictNotFound file ↔
      ∃ needed, (needed = path ∨ needed = affixPath path) ∧
        setting.package.has needed = false ∧ file = some (PackagePath.normalize needed) := by
  have hfile : ∀ needed, Reported (setting.dictionaryFile (PackagePath.normalize needed))
      .manifestDictNotFound file ↔
        setting.package.has needed = false ∧ file = some (PackagePath.normalize needed) := by
    intro needed
    rw [← hpackage.has_normalize, ← has_eq hpackage]
    exact reported_unless rfl
  simp only [dictionaryFiles, ← normalize_affixPath, reported_append, hfile, or_and_right,
    exists_or, exists_eq_left]

omit hpackage in
theorem not_reported_dictionaryCount (count : Nat) :
    ¬Reported (setting.dictionaryCount count) .manifestDictNotFound file := by
  fun_cases dictionaryCount setting count with
  | case1 => simp [reported_singleton]
  | case2 => exact not_reported_nil
  | case3 => simp [reported_singleton]

theorem reported_checkDictionaries :
    Reported (setting.checkDictionaries manifest) .manifestDictNotFound file ↔
      setting.package.Misses (manifest.References setting.context .dictionary) file := by
  have hid : ¬Reported (if manifest.addonId?.isNone then [setting.finding .manifestDictMissingId []]
      else []) .manifestDictNotFound file := by
    split
    · simp [reported_singleton]
    · exact not_reported_nil
  have hdeclared : Reported (setting.checkDictionaries manifest) .manifestDictNotFound file ↔
      ∃ declared, manifest.DeclaresDictionary declared ∧
        Reported (setting.dictionaryFiles declared) .manifestDictNotFound file := by
    fun_cases checkDictionaries setting manifest with
    | case1 hkind =>
        have hother : manifest.kind ≠ .dictionary := by simpa using hkind
        simp [not_reported_nil, Manifest.DeclaresDictionary, hother]
    | case2 hkind =>
        have hdictionary : manifest.kind = .dictionary := by simpa using hkind
        rw [reported_append, or_iff_right hid]
        simp only [Manifest.declaresDictionary_iff, hdictionary, true_and]
        cases (manifest.get? "dictionaries").bind Json.members? with
        | none => simp [not_reported_nil]
        | some dictionaries =>
            simp only [reported_append, not_reported_dictionaryCount, false_or, reported_flatMap,
              Option.some.injEq, exists_eq_left']
  simp only [hdeclared, reported_dictionaryFiles hpackage, Package.Misses,
    Manifest.references_dictionary]
  constructor
  · rintro ⟨declared, hdeclares, path, hneeded, hmissing⟩
    exact ⟨path, ⟨declared, hdeclares, hneeded⟩, hmissing⟩
  · rintro ⟨path, ⟨declared, hdeclares, hneeded⟩, hmissing⟩
    exact ⟨declared, hdeclares, path, hneeded, hmissing⟩

end RuleSetting

namespace Asset.Checker

variable {checker : Checker} {file : Option String}

theorem reported_checkIcon {icon : IconReference} :
    Reported (checker.checkIcon icon) .manifestIconNotFound file ↔
      checker.package.has icon.path = false ∧ file = some icon.path := by
  cases hhas : checker.package.has icon.path with
  | true =>
      have hnot : Code.manifestIconNotFound ∉ iconContentCodes := by decide
      simp [(checker.ofCodes_checkIcon_of_has hhas).not_reported hnot]
  | false =>
      rw [checkIcon_of_not_has hhas, reported_singleton]
      simp [finding, Diagnostic.withFile, @eq_comm _ file]

theorem reported_checkThemeImage {image : ThemeImageReference} :
    Reported (checker.checkThemeImage image) .manifestThemeImageNotFound file ↔
      checker.package.has image.path = false ∧ file = some image.path := by
  cases hhas : checker.package.has image.path with
  | true =>
      have hnot : Code.manifestThemeImageNotFound ∉ themeContentCodes := by decide
      simp [(checker.ofCodes_checkThemeImage_of_has hhas).not_reported hnot]
  | false =>
      rw [checkThemeImage_of_not_has hhas, reported_singleton]
      simp [finding, Diagnostic.withFile, @eq_comm _ file]

end Asset.Checker

theorem Package.misses_normalize {package : Package} {context : LintContext} {manifest : Manifest}
    {role : FileRole} {file : Option String} :
    package.Misses (manifest.normalize.References context role) file ↔
      package.Misses (manifest.References context role) file := by
  simp only [Package.Misses, Manifest.references_normalize]

namespace Linter

theorem reported_log_missing (linter : Linter) (context : LintContext) {package : Package}
    (hpackage : package.Stored) (document : Json) (manifest : Manifest) (role : FileRole)
    (file : Option String) :
    Reported (linter.log context package document manifest).entries role.missingCode file ↔
      package.Misses (manifest.References context role) file := by
  rw [← Package.misses_normalize]
  cases role with
  | background =>
      rw [FileRole.missingCode, linter.reported_log_of_rule context package .background (by decide)
        (by decide)]
      exact RuleSetting.reported_checkBackground hpackage
  | contentScript =>
      rw [FileRole.missingCode, linter.reported_log_of_rule context package .contentScripts (by decide)
        (by decide)]
      exact RuleSetting.reported_checkContentScripts hpackage
  | dictionary =>
      rw [FileRole.missingCode, linter.reported_log_of_rule context package .dictionaries (by decide)
        (by decide)]
      exact RuleSetting.reported_checkDictionaries hpackage
  | icon =>
      rw [FileRole.missingCode, reported_log_of_icon _ _ _ (by decide),
        Package.misses_of_canonical hpackage (Asset.mem_icons context)]
      simp only [Asset.Checker.reported_checkIcon]
      rfl
  | themeImage =>
      rw [FileRole.missingCode, reported_log_of_themeImage _ _ _ (by decide)]
      by_cases hkind : manifest.kind = .staticTheme
      · have hnormal : manifest.normalize.kind = .staticTheme := hkind
        rw [Package.misses_of_canonical hpackage (Asset.mem_themeImages context hnormal)]
        simp only [Asset.Checker.reported_checkThemeImage, hkind, true_and]
        rfl
      · simp only [hkind, false_and, false_iff]
        rintro ⟨path, href, -⟩
        cases href with
        | themeImage hstatic => exact hkind hstatic

/-- For each role, the files of the findings that a file is missing are the canonical paths of the
references that lead to nothing. -/
theorem lint_missingFiles (linter : Linter) (context : LintContext) {package : Package}
    (hpackage : package.Stored) (properties : Json.Members) :
    ∃ report, linter.lint context package (.object properties) = .ok report ∧
      ∀ (role : FileRole) (file : Option String),
        (∃ diagnostic ∈ report.diagnostics,
          diagnostic.code = role.missingCode ∧ diagnostic.file = file) ↔
        ∃ path, (Manifest.ofProperties properties).References context role path ∧
          package.has path = false ∧ file = some (PackagePath.normalize path) := by
  refine ⟨_, linter.lint_object context package properties, fun role file => ?_⟩
  exact Report.reported_diagnostics_ofLog.trans
    (linter.reported_log_missing context hpackage _ _ role file)

/-- A page that is not there and the affixes of a dictionary that is there are both missing. -/
theorem lint_missingFiles_dictionary :
    let package := MemoryPackage.empty.withFile "en.dic" []
    let properties := [("background", Json.object [("page", .string "./page.html")]),
      ("dictionaries", Json.object [("en", .string "/en.dic")])]
    package.toPackage.Stored ∧
      ∃ report, Linter.standard.lint .standard package.toPackage (.object properties) = .ok report ∧
        (∃ diagnostic ∈ report.diagnostics,
          diagnostic.code = .manifestBackgroundFileNotFound ∧ diagnostic.file = some "page.html") ∧
        ∃ diagnostic ∈ report.diagnostics,
          diagnostic.code = .manifestDictNotFound ∧ diagnostic.file = some "en.aff" := by
  intro package properties
  obtain ⟨report, hreport, hfiles⟩ :=
    Linter.standard.lint_missingFiles .standard (.memory package) properties
  have hdeclares : (Manifest.ofProperties properties).DeclaresDictionary "/en.dic" :=
    ⟨by decide, _, "en", rfl, List.mem_singleton.mpr rfl⟩
  refine ⟨.memory package, report, hreport, ?_, ?_⟩
  · exact (hfiles .background _).mpr ⟨"./page.html", .page rfl rfl, by decide, by decide⟩
  · exact (hfiles .dictionary _).mpr ⟨_, .affix hdeclares, by decide, by decide⟩

end Linter
end ExtensionLint
