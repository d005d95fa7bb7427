import ExtensionLint.Proofs.MissingFiles
import ExtensionLint.Proofs.PackageBuild

/-!
What it takes to read a file that the rules have accepted. The rules ask whether a package has a path;
a package has its directories too, which cannot be read. A directory is listed with a slash at the end,
so an accepted path whose canonical spelling has none is that of a stored file. One that ends in a slash
may be that of a directory, and then it is accepted and cannot be read.
-/

namespace ExtensionLint

/-- The roles of the files that rules ask for. -/
def FileRole.ofRules : List FileRole := [.background, .contentScript, .dictionary]

namespace RuleSetting

variable {setting : RuleSetting} {manifest : Manifest} {role : FileRole} {path : String}

theorem reported_run_missing (hpackage : setting.package.Stored) (hrole : role ∈ FileRole.ofRules)
    {file : Option String} :
    Reported (setting.run manifest) role.missingCode file ↔
      setting.package.Misses (manifest.References setting.context role) file := by
  cases role with
  | background =>
      have hcode : FileRole.background.missingCode ∈ Rule.background.codes := by decide
      exact (reported_run setting manifest hcode).trans (reported_checkBackground hpackage)
  | contentScript =>
      have hcode : FileRole.contentScript.missingCode ∈ Rule.contentScripts.codes := by decide
      exact (reported_run setting manifest hcode).trans (reported_checkContentScripts hpackage)
  | dictionary =>
      have hcode : FileRole.dictionary.missingCode ∈ Rule.dictionaries.codes := by decide
      exact (reported_run setting manifest hcode).trans (reported_checkDictionaries hpackage)
  | icon => exact absurd hrole (by decide)
  | themeImage => exact absurd hrole (by decide)

theorem has_of_not_reported (hpackage : setting.package.Stored) (hrole : role ∈ FileRole.ofRules)
    (href : manifest.References setting.context role path)
    (haccepted : ¬Reported (setting.run manifest) role.missingCode
      (some (PackagePath.normalize path))) :
    setting.package.has path = true := by
  rw [reported_run_missing hpackage hrole] at haccepted
  exact Bool.of_not_eq_false fun hmissing => haccepted ⟨path, href, hmissing, rfl⟩

/-- A referenced path that the rules do not report as missing can be read, unless its canonical spelling
ends in a slash and is that of a directory with no file stored under it. Only then does it fail, as a
path that is not in the package. -/
theorem read_accepted {additions : List MemoryPackage.Addition}
    (hpackage : setting.package = (MemoryPackage.build additions).toPackage)
    (hrole : role ∈ FileRole.ofRules) (href : manifest.References setting.context role path)
    (haccepted : ¬Reported (setting.run manifest) role.missingCode
      (some (PackagePath.normalize path))) :
    (∃ content, setting.package.read path = .ok content) ∨
      Text.endsWith ['/'] (PackagePath.normalize path).toList = true ∧
        PackagePath.normalize path ∈ (MemoryPackage.build additions).directories ∧
        setting.package.read path = .error (.notFound (PackagePath.normalize path)) := by
  have hhas := has_of_not_reported (hpackage ▸ .memory _) hrole href haccepted
  rw [hpackage] at hhas ⊢
  cases hcontent : (MemoryPackage.build additions).toPackage.content? path with
  | some content => exact .inl ⟨content, by rw [Package.read, hcontent]⟩
  | none =>
      refine .inr ?_
      have hdirectory : PackagePath.normalize path ∈ (MemoryPackage.build additions).directories := by
        refine ((MemoryPackage.build additions).has_iff.mp hhas).resolve_left ?_
        rintro ⟨content, hsome⟩
        exact Option.some_ne_none content (hsome.symm.trans hcontent)
      exact ⟨MemoryPackage.endsWith_of_mem_directories hdirectory, hdirectory,
        by rw [Package.read, hcontent]⟩

/-- A script that is there is accepted and read. -/
theorem read_accepted_script :
    let additions : List MemoryPackage.Addition := [.file "scripts/main.js" [0x3B]]
    let setting := Linter.standard.ruleSetting .standard (MemoryPackage.build additions).toPackage
    let manifest := (Manifest.ofProperties
      [("background", .object [("scripts", .array [.string "./scripts/main.js"])])]).normalize
    setting.package = (MemoryPackage.build additions).toPackage ∧
      .background ∈ FileRole.ofRules ∧
      manifest.References setting.context .background "./scripts/main.js" ∧
      ¬Reported (setting.run manifest) FileRole.background.missingCode
        (some (PackagePath.normalize "./scripts/main.js")) ∧
      ∃ content, setting.package.read "./scripts/main.js" = .ok content := by
  intro additions setting manifest
  have href : manifest.References setting.context .background "./scripts/main.js" :=
    .script rfl rfl (List.mem_singleton.mpr rfl)
  have hcode : FileRole.background.missingCode ∈ Rule.background.codes := by decide
  have haccepted : ¬Reported (setting.run manifest) FileRole.background.missingCode
      (some (PackagePath.normalize "./scripts/main.js")) := by
    have hnothing : setting.checkBackground manifest = [] := by decide +kernel
    rw [reported_run setting manifest hcode, Rule.check, hnothing]
    exact not_reported_nil
  refine ⟨rfl, by decide, href, haccepted, ?_⟩
  have hpackage : setting.package = (MemoryPackage.build additions).toPackage := rfl
  have hread := read_accepted hpackage (by decide) href haccepted
  exact hread.resolve_right fun hdirectory => absurd hdirectory.1 (by decide +kernel)

/-- A directory that is declared as a script is accepted and cannot be read. -/
theorem accepted_directory_unreadable :
    let additions : List MemoryPackage.Addition := [.file "scripts/main.js" [0x3B]]
    let setting := Linter.standard.ruleSetting .standard (MemoryPackage.build additions).toPackage
    let manifest := (Manifest.ofProperties
      [("background", .object [("scripts", .array [.string "scripts/"])]),
        ("manifest_version", .ofNat 2), ("name", .string "Demo"),
        ("version", .string "1.0")]).normalize
    manifest.References setting.context .background "scripts/" ∧
      ¬Reported (setting.run manifest) FileRole.background.missingCode (some "scripts/") ∧
      setting.package.read "scripts/" = .error (.notFound "scripts/") := by
  intro additions setting manifest
  have hcode : FileRole.background.missingCode ∈ Rule.background.codes := by decide
  have hnothing : setting.checkBackground manifest = [] := by decide +kernel
  refine ⟨.script rfl rfl (List.mem_singleton.mpr rfl), ?_, by decide +kernel⟩
  rw [reported_run setting manifest hcode, Rule.check, hnothing]
  exact not_reported_nil

end RuleSetting
end ExtensionLint
