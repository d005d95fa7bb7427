import ExtensionLint.Linter
import ExtensionLint.Proofs.Log

/-!
A run as three lists of findings: about the document, by the rules, and about the images. The first
two are in the log as they are; of the third the log takes what is new to it. So a run reports a code
about a file exactly when one of the three lists does.
-/

namespace ExtensionLint

namespace Asset.Checker

variable (checker : Checker)

theorem checkIcons_eq (icons : List IconReference) (log : Log) :
    checker.checkIcons icons log = log.addAllNew (icons.flatMap checker.checkIcon) :=
  Log.foldl_addAllNew checker.checkIcon icons log

theorem checkThemeImages_eq (images : List ThemeImageReference) (log : Log) :
    checker.checkThemeImages images log = log.addAllNew (images.flatMap checker.checkThemeImage) :=
  Log.foldl_addAllNew checker.checkThemeImage images log

end Asset.Checker

namespace Linter

variable (linter : Linter) (context : LintContext) (package : Package)

/-- The findings about the images of a normalized manifest, before any is left out. -/
def assetFindings (manifest : Manifest) : List Diagnostic :=
  let checker := linter.assetChecker package
  (Asset.icons manifest).flatMap checker.checkIcon ++
    if manifest.kind = .staticTheme then (Asset.themeImages manifest).flatMap checker.checkThemeImage
    else []

theorem checkAssets_eq (manifest : Manifest) (log : Log) :
    linter.checkAssets package manifest log =
      log.addAllNew (linter.assetFindings package manifest) := by
  simp only [checkAssets, assetFindings, Asset.Checker.checkIcons_eq,
    Asset.Checker.checkThemeImages_eq]
  by_cases hkind : manifest.kind = .staticTheme
  · rw [if_pos hkind, if_pos hkind, Log.addAllNew_append]
  · rw [if_neg hkind, if_neg hkind, List.append_nil]

/-- The findings about the document and by the rules, which the log takes as they are. -/
def textFindings (document : Json) (manifest : Manifest) : List Diagnostic :=
  linter.documentFindings context document manifest ++ linter.ruleFindings context package manifest

theorem log_eq (document : Json) (manifest : Manifest) :
    linter.log context package document manifest =
      (Log.mk (linter.textFindings context package document manifest)).addAllNew
        (linter.assetFindings package manifest.normalize) := by
  rw [log, checkAssets_eq]
  rfl

theorem textFindings_prefix_log (document : Json) (manifest : Manifest) :
    linter.textFindings context package document manifest <+:
      (linter.log context package document manifest).entries := by
  rw [log_eq]
  exact Log.prefix_addAllNew _ _

/-- What a run reports is what its findings are about, whether or not the log left some out. -/
theorem reported_log {document : Json} {manifest : Manifest} {code : Code} {file : Option String} :
    Reported (linter.log context package document manifest).entries code file ↔
      Reported (linter.textFindings context package document manifest) code file ∨
        Reported (linter.assetFindings package manifest.normalize) code file := by
  rw [log_eq, Log.reported_addAllNew, reported_append]

theorem lint_object (properties : Json.Members) :
    linter.lint context package (.object properties) =
      .ok (linter.report context package (.object properties) (Manifest.ofProperties properties)) :=
  rfl

end Linter
end ExtensionLint
