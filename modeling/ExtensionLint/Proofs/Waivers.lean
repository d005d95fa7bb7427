import ExtensionLint.Package.Memory
import ExtensionLint.Proofs.Codes
import ExtensionLint.Proofs.History

/-!
Waivers. An add-on that its author distributes, or that was signed before, is spared some findings.
The rules that make them give nothing where the waiver is granted, and no other rule and no other
phase reads it. The images are found after these findings and under codes of their own, so a log
takes the same of them with and without the waiver: granting it only takes findings out of a report.
-/

namespace ExtensionLint

def withoutCodes (codes : List Code) (findings : List Diagnostic) : List Diagnostic :=
  findings.filter fun diagnostic => !codes.contains diagnostic.code

section WithoutCodes

variable {codes others : List Code} {findings : List Diagnostic}

theorem withoutCodes_append (first second : List Diagnostic) :
    withoutCodes codes (first ++ second) = withoutCodes codes first ++ withoutCodes codes second :=
  List.filter_append ..

theorem withoutCodes_eq_nil (h : OfCodes codes findings) : withoutCodes codes findings = [] := by
  refine List.filter_eq_nil_iff.mpr fun diagnostic hdiagnostic => ?_
  simpa using h diagnostic hdiagnostic

theorem withoutCodes_eq_self (h : OfCodes others findings)
    (hdisjoint : ∀ code ∈ others, code ∉ codes) : withoutCodes codes findings = findings := by
  refine List.filter_eq_self.mpr fun diagnostic hdiagnostic => ?_
  simpa using hdisjoint _ (h diagnostic hdiagnostic)

end WithoutCodes

namespace Log

def without (codes : List Code) (log : Log) : Log := ⟨withoutCodes codes log.entries⟩

variable {codes : List Code} {log : Log}

/-- What a log has under another code it has without the codes too. -/
theorem has_without {diagnostic : Diagnostic} (hcode : diagnostic.code ∉ codes) :
    (log.without codes).has diagnostic = log.has diagnostic := by
  have hsame : ∀ entry, (!codes.contains entry.code && diagnostic.sameSubject entry) =
      diagnostic.sameSubject entry := by
    intro entry
    cases hsubject : diagnostic.sameSubject entry with
    | false => exact Bool.and_false _
    | true =>
        obtain ⟨hentry, -⟩ : diagnostic.code = entry.code ∧ diagnostic.file = entry.file := by
          simpa [Diagnostic.sameSubject] using hsubject
        simpa [← hentry] using hcode
  rw [has, has, Log.without, withoutCodes, List.any_filter]
  exact congrArg log.entries.any (funext hsame)

theorem without_addNew {diagnostic : Diagnostic} (hcode : diagnostic.code ∉ codes) :
    (log.addNew diagnostic).without codes = (log.without codes).addNew diagnostic := by
  cases hhas : log.has diagnostic with
  | true => rw [addNew_of_has hhas, addNew_of_has ((has_without hcode).trans hhas)]
  | false =>
      have hown : OfCodes [diagnostic.code] [diagnostic] := by simp
      have hkept : withoutCodes codes [diagnostic] = [diagnostic] :=
        withoutCodes_eq_self hown (by simpa using hcode)
      rw [addNew_of_not_has hhas, addNew_of_not_has ((has_without hcode).trans hhas), add, add,
        Log.without, withoutCodes_append, hkept]
      rfl

/-- A log takes the same findings of other codes whether or not the codes were left out before. -/
theorem without_addAllNew {others : List Code} {findings : List Diagnostic}
    (hfindings : OfCodes others findings) (hdisjoint : ∀ code ∈ others, code ∉ codes) :
    (log.addAllNew findings).without codes = (log.without codes).addAllNew findings := by
  induction findings generalizing log with
  | nil => rfl
  | cons diagnostic findings ih =>
      have hhead : diagnostic.code ∉ codes :=
        hdisjoint _ (hfindings diagnostic (List.mem_cons_self ..))
      have htail : OfCodes others findings := fun other hother =>
        hfindings other (List.mem_cons_of_mem _ hother)
      rw [addAllNew_cons, addAllNew_cons, ih htail, without_addNew hhead]

end Log

namespace Report

/-- A report without the findings of some codes. It is valid if nothing that is left invalidates
it. -/
def without (codes : List Code) (report : Report) : Report :=
  let errors := withoutCodes codes report.errors
  let warnings := withoutCodes codes report.warnings
  let notices := withoutCodes codes report.notices
  { valid := (errors ++ warnings ++ notices).all fun diagnostic => !diagnostic.invalidates
    errors := errors
    warnings := warnings
    notices := notices
    metadata := report.metadata }

variable {codes : List Code} {log : Log} {metadata : Option Metadata}

/-- Leaving findings out of a report is leaving them out of its log. -/
theorem without_ofLog :
    (ofLog log metadata).without codes = ofLog (log.without codes) metadata := by
  have hpart : ∀ severity,
      withoutCodes codes (log.ofSeverity severity) = (log.without codes).ofSeverity severity :=
    fun severity => List.filter_comm _ _ log.entries
  have hvalid : (ofLog (log.without codes) metadata).diagnostics.all (fun d => !d.invalidates) =
      (log.without codes).isValid :=
    (perm_diagnostics_ofLog (log.without codes) metadata).all_eq
  simp only [Report.without, ofLog, hpart] at hvalid ⊢
  rw [← hvalid]
  rfl

theorem valid_without_ofLog (hvalid : (ofLog log metadata).valid = true) :
    ((ofLog log metadata).without codes).valid = true := by
  rw [without_ofLog]
  refine List.all_eq_true.mpr fun diagnostic hdiagnostic => ?_
  exact List.all_eq_true.mp hvalid diagnostic (List.mem_of_mem_filter hdiagnostic)

end Report

/-- A circumstance of distribution that spares an add-on some findings. -/
inductive Waiver where
  /-- The add-on is distributed by its author. -/
  | selfHosted
  /-- The add-on was signed before. -/
  | alreadySigned
  deriving DecidableEq, Repr

namespace Waiver

/-- The codes of the findings that an add-on is spared. -/
def codes : Waiver → List Code
  | selfHosted => [.manifestUpdateUrl, .strictMaxVersion]
  | alreadySigned => [.extensionIdRequired]

/-- The rules that do not apply where a waiver is granted. -/
def rules : Waiver → List RuleSetting.Rule
  | selfHosted => [.updateUrl, .maxVersion]
  | alreadySigned => [.idPresent]

/-- The rules that do not apply report spared codes only, and the others report none of them. -/
theorem mem_codes_iff (waiver : Waiver) {rule : RuleSetting.Rule} {code : Code}
    (hcode : code ∈ rule.codes) : code ∈ waiver.codes ↔ rule ∈ waiver.rules := by
  have hall : ∀ rule ∈ RuleSetting.Rule.all, ∀ code ∈ rule.codes,
      (code ∈ waiver.codes ↔ rule ∈ waiver.rules) := by
    cases waiver <;> decide
  exact hall rule rule.mem_all code hcode

/-- No phase but the rules reports the codes of a waiver. -/
theorem disjoint_codes (waiver : Waiver) :
    ∀ code ∈ Classifier.codes ++ RuleSetting.legacyCodes ++ (Asset.iconCodes ++ Asset.themeCodes),
      code ∉ waiver.codes := by
  cases waiver <;> decide

end Waiver

/-- A context in which a waiver is granted or not. -/
def LintContext.grant (context : LintContext) (granted : Bool) : Waiver → LintContext
  | .selfHosted => { context with selfHosted := granted }
  | .alreadySigned => { context with alreadySigned := granted }

@[simp] theorem LintContext.privileged_grant (context : LintContext) (granted : Bool)
    (waiver : Waiver) : (context.grant granted waiver).privileged = context.privileged := by
  cases waiver <;> rfl

namespace RuleSetting

/-- A setting in which a waiver is granted or not. -/
def grant (setting : RuleSetting) (granted : Bool) (waiver : Waiver) : RuleSetting :=
  { setting with context := setting.context.grant granted waiver }

variable (setting : RuleSetting) {waiver : Waiver} {rule : Rule}

theorem check_grant_of_not_mem (hrule : rule ∉ waiver.rules) (granted : Bool)
    (manifest : Manifest) :
    rule.check (setting.grant granted waiver) manifest = rule.check setting manifest := by
  cases waiver with
  | selfHosted =>
      cases rule with
      | updateUrl | maxVersion => exact absurd (by decide) hrule
      | _ => rfl
  | alreadySigned =>
      cases rule with
      | idPresent => exact absurd (by decide) hrule
      | _ => rfl

theorem check_grant_of_mem (hrule : rule ∈ waiver.rules) (manifest : Manifest) :
    rule.check (setting.grant true waiver) manifest = [] := by
  cases waiver with
  | selfHosted =>
      rcases List.mem_pair.mp hrule with rfl | rfl
      · simp [Rule.check, checkUpdateUrl, grant, LintContext.grant]
      · simp [Rule.check, checkMaxVersion, grant, LintContext.grant]
  | alreadySigned =>
      obtain rfl := List.mem_singleton.mp hrule
      simp [Rule.check, checkIdPresent, grant, LintContext.grant]

/-- A rule reports what it reports without the waiver, less what the waiver spares. -/
theorem check_grant (waiver : Waiver) (rule : Rule) (manifest : Manifest) :
    rule.check (setting.grant true waiver) manifest =
      withoutCodes waiver.codes (rule.check (setting.grant false waiver) manifest) := by
  have hcodes := (setting.grant false waiver).ofCodes_check manifest rule
  by_cases hrule : rule ∈ waiver.rules
  · have hspared : ∀ code ∈ rule.codes, code ∈ waiver.codes :=
      fun code hcode => (waiver.mem_codes_iff hcode).mpr hrule
    rw [setting.check_grant_of_mem hrule,
      withoutCodes_eq_nil fun diagnostic h => hspared _ (hcodes diagnostic h)]
  · have hkept : ∀ code ∈ rule.codes, code ∉ waiver.codes :=
      fun code hcode hspared => hrule ((waiver.mem_codes_iff hcode).mp hspared)
    rw [setting.check_grant_of_not_mem hrule, withoutCodes_eq_self hcodes hkept,
      setting.check_grant_of_not_mem hrule]

theorem run_grant (waiver : Waiver) (manifest : Manifest) :
    (setting.grant true waiver).run manifest =
      withoutCodes waiver.codes ((setting.grant false waiver).run manifest) := by
  simp only [run, rules_eq, List.flatMap_map]
  rw [withoutCodes, List.filter_flatMap]
  exact List.flatMap_congr fun rule _ => setting.check_grant waiver rule manifest

end RuleSetting

namespace Linter

variable (linter : Linter) (context : LintContext) (package : Package) (waiver : Waiver)

/-- The findings about the document and by the rules are fewer by those that a waiver spares. -/
theorem textFindings_grant (document : Json) (manifest : Manifest) :
    linter.textFindings (context.grant true waiver) package document manifest =
      withoutCodes waiver.codes
        (linter.textFindings (context.grant false waiver) package document manifest) := by
  have hdisjoint := waiver.disjoint_codes
  simp only [List.mem_append, or_imp, forall_and] at hdisjoint
  obtain ⟨⟨hclassifier, hlegacy⟩, -⟩ := hdisjoint
  have hdocument : ∀ granted,
      linter.documentFindings (context.grant granted waiver) document manifest =
        linter.documentFindings context document manifest := by
    intro granted
    simp only [documentFindings, classifier, LintContext.privileged_grant]
  have hclassified : withoutCodes waiver.codes (linter.documentFindings context document manifest) =
      linter.documentFindings context document manifest :=
    withoutCodes_eq_self (Classifier.ofCodes_classifyAll _ _) hclassifier
  have hshape := withoutCodes_eq_self
    ((linter.ruleSetting context package).ofCodes_checkLegacyShape manifest) hlegacy
  have hrun := (linter.ruleSetting context package).run_grant waiver manifest.normalize
  calc linter.textFindings (context.grant true waiver) package document manifest
    _ = linter.documentFindings context document manifest ++
          (((linter.ruleSetting context package).checkLegacyShape manifest).toList ++
            ((linter.ruleSetting context package).grant true waiver).run manifest.normalize) := by
        rw [textFindings, hdocument]
        rfl
    _ = withoutCodes waiver.codes (linter.documentFindings context document manifest ++
          (((linter.ruleSetting context package).checkLegacyShape manifest).toList ++
            ((linter.ruleSetting context package).grant false waiver).run manifest.normalize)) := by
        rw [withoutCodes_append, withoutCodes_append, hclassified, hshape, hrun]
    _ = withoutCodes waiver.codes
          (linter.textFindings (context.grant false waiver) package document manifest) := by
        rw [textFindings, hdocument]
        rfl

theorem log_grant (document : Json) (manifest : Manifest) :
    linter.log (context.grant true waiver) package document manifest =
      (linter.log (context.grant false waiver) package document manifest).without waiver.codes := by
  have hassets : ∀ code ∈ Asset.iconCodes ++ Asset.themeCodes, code ∉ waiver.codes :=
    fun code hcode => waiver.disjoint_codes code (List.mem_append_right _ hcode)
  rw [log_eq, log_eq, Log.without_addAllNew (linter.ofCodes_assetFindings package) hassets,
    textFindings_grant]
  rfl

/-- Granting a waiver takes the findings that it spares out of the report and changes nothing else:
what is left keeps its order, the metadata stay, and whether the package is valid is decided by what
is left. So a valid package stays valid. -/
theorem lint_grant (document : Json) :
    let lint := fun granted => linter.lint (context.grant granted waiver) package document
    lint true = (lint false).map (Report.without waiver.codes) ∧
      ∀ report, lint false = .ok report → report.valid = true →
        (report.without waiver.codes).valid = true := by
  intro lint
  have hreport : ∀ manifest,
      linter.report (context.grant true waiver) package document manifest =
        (linter.report (context.grant false waiver) package document manifest).without
          waiver.codes := by
    intro manifest
    rw [report, report, Report.without_ofLog, log_grant]
  simp only [lint, Linter.lint]
  cases Manifest.ofJson document with
  | error found => exact ⟨rfl, fun report hlint => by cases hlint⟩
  | ok manifest =>
      refine ⟨congrArg Except.ok (hreport manifest), fun report hlint hvalid => ?_⟩
      obtain rfl := Except.ok.inj hlint
      exact Report.valid_without_ofLog hvalid

/-- A self-hosted add-on may set a newest admitted version, which else gives a notice. -/
theorem lint_grant_maxVersion :
    let properties : Json.Members := [("applications", .object [("gecko", .object
        [("id", .string "demo@example.com"), ("strict_max_version", .string "60.*")])]),
      ("manifest_version", .ofNat 2), ("name", .string "Demo"), ("version", .string "1.0")]
    let lint := fun granted => standard.lint (LintContext.standard.grant granted .selfHosted)
      MemoryPackage.empty.toPackage (.object properties)
    ∃ report, lint false = .ok report ∧ report.valid = true ∧
      report.notices.map Diagnostic.code = [.strictMaxVersion] ∧
      lint true = .ok (report.without Waiver.selfHosted.codes) ∧
      (report.without Waiver.selfHosted.codes).valid = true ∧
      (report.without Waiver.selfHosted.codes).notices = [] ∧
      (report.without Waiver.selfHosted.codes).warnings.map Diagnostic.code =
        [.applicationsDeprecated] := by
  intro properties lint
  obtain ⟨hgranted, hvalid⟩ := lint_grant standard .standard MemoryPackage.empty.toPackage
    .selfHosted (.object properties)
  have hlint := lint_object standard (LintContext.standard.grant false .selfHosted)
    MemoryPackage.empty.toPackage properties
  exact ⟨_, hlint, by decide +kernel, by decide +kernel,
    hgranted.trans (congrArg (Except.map _) hlint), hvalid _ hlint (by decide +kernel),
    by decide +kernel, by decide +kernel⟩

end Linter
end ExtensionLint
