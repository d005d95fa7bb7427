import ExtensionLint.Proofs.Codes
import ExtensionLint.Proofs.History
import Mathlib.Data.List.Nodup

/-!
The findings of one code. A phase that does not report a code adds no finding of it, neither to a list
nor to a log that leaves findings out. So under a code that only the document gives rise to, the log
has what classification found, under the codes of one rule it has what that rule found, and the
report has the same findings.
-/

namespace ExtensionLint

/-- The findings of one code, in their order. -/
def withCode (code : Code) (findings : List Diagnostic) : List Diagnostic :=
  findings.filter fun diagnostic => diagnostic.code = code

/-- The findings of some codes, in their order. -/
def withCodes (codes : List Code) (findings : List Diagnostic) : List Diagnostic :=
  findings.filter fun diagnostic => diagnostic.code ∈ codes

section WithCode

variable {code : Code} {codes : List Code} {findings : List Diagnostic}

theorem withCode_append (first second : List Diagnostic) :
    withCode code (first ++ second) = withCode code first ++ withCode code second :=
  List.filter_append ..

theorem mem_withCode {diagnostic : Diagnostic} :
    diagnostic ∈ withCode code findings ↔ diagnostic ∈ findings ∧ diagnostic.code = code := by
  rw [withCode, List.mem_filter, decide_eq_true_eq]

theorem length_withCode_singleton (diagnostic : Diagnostic) :
    (withCode code [diagnostic]).length = if diagnostic.code = code then 1 else 0 := by
  rw [withCode, List.filter_singleton]
  by_cases hcode : diagnostic.code = code <;> simp [hcode]

theorem withCode_eq_nil (h : OfCodes codes findings) (hcode : code ∉ codes) :
    withCode code findings = [] := by
  apply List.filter_eq_nil_iff.mpr
  intro diagnostic hdiagnostic hsame
  exact hcode (of_decide_eq_true hsame ▸ h diagnostic hdiagnostic)

theorem withCodes_eq_nil {others : List Code} (h : OfCodes others findings)
    (hdisjoint : ∀ code ∈ others, code ∉ codes) : withCodes codes findings = [] := by
  apply List.filter_eq_nil_iff.mpr
  intro diagnostic hdiagnostic hsame
  exact hdisjoint _ (h diagnostic hdiagnostic) (of_decide_eq_true hsame)

theorem withCodes_eq_self (h : OfCodes codes findings) : withCodes codes findings = findings :=
  List.filter_eq_self.mpr fun diagnostic hdiagnostic => decide_eq_true (h diagnostic hdiagnostic)

theorem withCode_withCodes (hcode : code ∈ codes) :
    withCode code (withCodes codes findings) = withCode code findings := by
  rw [withCode, withCodes, List.filter_filter]
  apply List.filter_congr
  intro diagnostic _
  by_cases hsame : diagnostic.code = code
  · simp [hsame, hcode]
  · simp [hsame]

theorem Log.withCode_addNew {log : Log} {diagnostic : Diagnostic} (hcode : diagnostic.code ≠ code) :
    withCode code (log.addNew diagnostic).entries = withCode code log.entries := by
  cases hhas : log.has diagnostic with
  | true => rw [addNew_of_has hhas]
  | false =>
      have hown : OfCodes [diagnostic.code] [diagnostic] := by simp
      have hother : withCode code [diagnostic] = [] :=
        withCode_eq_nil hown (by simpa using hcode.symm)
      rw [addNew_of_not_has hhas, entries_add, withCode_append, hother, List.append_nil]

theorem Log.withCode_addAllNew {log : Log} (h : OfCodes codes findings) (hcode : code ∉ codes) :
    withCode code (log.addAllNew findings).entries = withCode code log.entries := by
  induction findings generalizing log with
  | nil => rfl
  | cons diagnostic findings ih =>
      have hhead : diagnostic.code ≠ code :=
        fun hsame => hcode (hsame ▸ h diagnostic (List.mem_cons_self ..))
      have htail : OfCodes codes findings := fun other hother =>
        h other (List.mem_cons_of_mem _ hother)
      rw [addAllNew_cons, ih htail, withCode_addNew hhead]

theorem Report.perm_withCode_ofLog (log : Log) (metadata : Option Metadata) :
    (withCode code (ofLog log metadata).diagnostics).Perm (withCode code log.entries) :=
  (perm_diagnostics_ofLog log metadata).filter _

/-- Findings of one code and one severity stand in a report in the order of its log. -/
theorem Report.withCode_ofLog {log : Log} {severity : Severity}
    (hseverity : ∀ diagnostic ∈ withCode code log.entries, diagnostic.severity = severity)
    (metadata : Option Metadata) :
    withCode code (ofLog log metadata).diagnostics = withCode code log.entries := by
  have hkept : (withCode code log.entries).Sublist (ofLog log metadata).diagnostics :=
    sublist_diagnostics_ofLog List.filter_sublist hseverity
  have hsublist : (withCode code log.entries).Sublist
      (withCode code (ofLog log metadata).diagnostics) := by
    have hfilter := hkept.filter fun diagnostic => decide (diagnostic.code = code)
    simpa only [withCode, List.filter_filter, Bool.and_self] using hfilter
  exact (hsublist.eq_of_length (perm_withCode_ofLog log metadata).length_eq.symm).symm

end WithCode

namespace RuleSetting

variable (setting : RuleSetting) (manifest : Manifest) {rule : Rule}

/-- The findings of the rules under the codes of one rule are all that this rule finds. -/
theorem withCodes_run (rule : Rule) :
    withCodes rule.codes (setting.run manifest) = rule.check setting manifest := by
  have hother : ∀ other, other ≠ rule → withCodes rule.codes (other.check setting manifest) = [] := by
    intro other hne
    apply withCodes_eq_nil (setting.ofCodes_check manifest other)
    exact fun code hcode hrule => hne (Rule.eq_of_mem_codes hcode hrule)
  -- the rule stands once in the list, and what stands before and after it contributes nothing
  obtain ⟨before, after, hall⟩ := List.append_of_mem rule.mem_all
  have hnodup : (before ++ rule :: after).Nodup := hall ▸ (by decide : Rule.all.Nodup)
  have hapart : rule ∉ before ++ after := (List.nodup_middle.mp hnodup).notMem
  have hnone : ∀ part : List Rule, rule ∉ part →
      part.flatMap (fun other => withCodes rule.codes (other.check setting manifest)) = [] := by
    intro part hpart
    apply List.flatMap_eq_nil_iff.mpr
    intro other hmem
    exact hother other fun hsame => hpart (hsame ▸ hmem)
  calc withCodes rule.codes (setting.run manifest)
    _ = Rule.all.flatMap fun other => withCodes rule.codes (other.check setting manifest) := by
        rw [run, rules_eq, List.flatMap_map, withCodes, List.filter_flatMap]
        rfl
    _ = withCodes rule.codes (rule.check setting manifest) := by
        rw [hall, List.flatMap_append, List.flatMap_cons, hnone before, hnone after,
          List.nil_append, List.append_nil]
        · exact fun h => hapart (List.mem_append_right _ h)
        · exact fun h => hapart (List.mem_append_left _ h)
    _ = rule.check setting manifest := withCodes_eq_self (setting.ofCodes_check manifest rule)

theorem withCode_run {code : Code} (hcode : code ∈ rule.codes) :
    withCode code (setting.run manifest) = withCode code (rule.check setting manifest) := by
  rw [← setting.withCodes_run manifest rule, withCode_withCodes hcode]

end RuleSetting

namespace Linter

variable (linter : Linter) (context : LintContext) (package : Package) {document : Json}
  {manifest : Manifest} {code : Code}

/-- The codes of the phases after classification. -/
def laterCodes : List Code :=
  RuleSetting.legacyCodes ++ RuleSetting.Rule.all.flatMap RuleSetting.Rule.codes ++
    (Asset.iconCodes ++ Asset.themeCodes)

/-- Under a code that images do not have, the log has the findings about the document and by the
rules. -/
theorem withCode_log_of_text (hassets : code ∉ Asset.iconCodes ++ Asset.themeCodes) :
    withCode code (linter.log context package document manifest).entries =
      withCode code (linter.documentFindings context document manifest) ++
        (withCode code ((linter.ruleSetting context package).checkLegacyShape manifest).toList ++
          withCode code ((linter.ruleSetting context package).run manifest.normalize)) := by
  rw [log_eq, Log.withCode_addAllNew (linter.ofCodes_assetFindings package) hassets, textFindings,
    ruleFindings, withCode_append, withCode_append]

/-- The findings of a code that no later phase reports are those about the document. -/
theorem withCode_log (hcode : code ∉ laterCodes) :
    withCode code (linter.log context package document manifest).entries =
      withCode code (linter.documentFindings context document manifest) := by
  simp only [laterCodes, List.mem_append, not_or] at hcode
  obtain ⟨⟨hlegacy, hrules⟩, hicons, hthemes⟩ := hcode
  have hshape : withCode code
      ((linter.ruleSetting context package).checkLegacyShape manifest).toList = [] :=
    withCode_eq_nil (RuleSetting.ofCodes_checkLegacyShape _ _) hlegacy
  have hrun : withCode code ((linter.ruleSetting context package).run manifest.normalize) = [] :=
    withCode_eq_nil (RuleSetting.ofCodes_run _ _) hrules
  have hassets : code ∉ Asset.iconCodes ++ Asset.themeCodes :=
    fun h => (List.mem_append.mp h).elim hicons hthemes
  rw [linter.withCode_log_of_text context package hassets, hshape, hrun, List.append_nil,
    List.append_nil]

/-- The findings of a code of a rule that classification does not use are those of the rule about
the normalized manifest. -/
theorem withCode_log_of_rule {rule : RuleSetting.Rule} (hcode : code ∈ rule.codes)
    (hclassifier : code ∉ Classifier.codes) :
    withCode code (linter.log context package document manifest).entries =
      withCode code
        (rule.check (linter.ruleSetting context package) manifest.normalize) := by
  obtain ⟨hlegacy, hassets⟩ := rule.codes_apart hcode
  have hdocument : withCode code (linter.documentFindings context document manifest) = [] :=
    withCode_eq_nil (Classifier.ofCodes_classifyAll _ _) hclassifier
  have hshape : withCode code
      ((linter.ruleSetting context package).checkLegacyShape manifest).toList = [] :=
    withCode_eq_nil (RuleSetting.ofCodes_checkLegacyShape _ _) hlegacy
  rw [linter.withCode_log_of_text context package hassets, hdocument, hshape, List.nil_append,
    List.nil_append, RuleSetting.withCode_run _ _ hcode]

end Linter
end ExtensionLint
