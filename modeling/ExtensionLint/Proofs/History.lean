import ExtensionLint.Proofs.Log

/-!
The history of a log. Findings come in one at a time, one at a time if they are new, or many at once;
in every history the log grows at its end only, so a finding keeps its place and an invalid log stays
invalid. The report of a log deals its findings out by severity: each part in the order of the log,
all parts together every finding once.
-/

namespace ExtensionLint

/-- Holds of findings of which no two have the same code and file. -/
def DistinctSubjects (findings : List Diagnostic) : Prop :=
  findings.Pairwise fun a b => ¬(a.code = b.code ∧ a.file = b.file)

namespace Log

/-- One way in which findings come into a log. -/
inductive Operation where
  | add (diagnostic : Diagnostic)
  /-- Takes a finding only if its code and file are new. -/
  | offer (diagnostic : Diagnostic)
  | extend (diagnostics : List Diagnostic)
  deriving DecidableEq, Repr

def apply (log : Log) : Operation → Log
  | .add diagnostic => log.add diagnostic
  | .offer diagnostic => (log.offer diagnostic).2
  | .extend diagnostics => log.extend diagnostics

/-- The log after operations, the first one first. -/
def run (log : Log) (operations : List Operation) : Log := operations.foldl apply log

section Growth

variable {log : Log}

theorem prefix_apply (operation : Operation) : log.entries <+: (log.apply operation).entries := by
  cases operation with
  | add diagnostic => exact List.prefix_append _ _
  | offer diagnostic =>
      rw [apply, offer_eq]
      exact prefix_addNew log diagnostic
  | extend diagnostics => exact List.prefix_append _ _

theorem prefix_run (operations : List Operation) : log.entries <+: (log.run operations).entries := by
  induction operations generalizing log with
  | nil => exact List.prefix_rfl
  | cons operation operations ih => exact (prefix_apply operation).trans ih

theorem isValid_run_eq_false (operations : List Operation) (hinvalid : log.isValid = false) :
    (log.run operations).isValid = false := by
  rw [isValid, List.all_eq_false] at hinvalid ⊢
  obtain ⟨diagnostic, hmem, hinvalidates⟩ := hinvalid
  exact ⟨diagnostic, (prefix_run operations).subset hmem, hinvalidates⟩

end Growth

section Offers

variable {log : Log} {diagnostic : Diagnostic}

/-- An offer is refused for an earlier finding of its code and file. -/
theorem offer_eq_false_iff :
    (log.offer diagnostic).1 = false ↔
      ∃ entry ∈ log.entries, entry.code = diagnostic.code ∧ entry.file = diagnostic.file := by
  rw [offer_eq, Bool.not_eq_false']
  exact has_iff_reported

theorem offer_of_refused (hrefused : (log.offer diagnostic).1 = false) :
    (log.offer diagnostic).2 = log := by
  rw [offer_eq] at hrefused ⊢
  exact addNew_of_has (by simpa using hrefused)

theorem offer_of_taken (htaken : (log.offer diagnostic).1 = true) :
    (log.offer diagnostic).2 = log.add diagnostic := by
  rw [offer_eq] at htaken ⊢
  exact addNew_of_not_has (by simpa using htaken)

theorem entries_offer_of_taken (htaken : (log.offer diagnostic).1 = true) :
    (log.apply (.offer diagnostic)).entries = log.entries ++ [diagnostic] := by
  rw [apply, offer_of_taken htaken, entries_add]

theorem distinctSubjects_offer (hdistinct : DistinctSubjects log.entries) :
    DistinctSubjects (log.offer diagnostic).2.entries := by
  cases hanswer : (log.offer diagnostic).1 with
  | false => rwa [offer_of_refused hanswer]
  | true =>
      rw [offer_of_taken hanswer, entries_add]
      refine List.pairwise_append.mpr ⟨hdistinct, List.pairwise_singleton _ _, ?_⟩
      intro entry hentry other hother hsame
      obtain rfl := List.mem_singleton.mp hother
      have hrefused := offer_eq_false_iff.mpr ⟨entry, hentry, hsame⟩
      rw [hanswer] at hrefused
      cases hrefused

/-- Where every finding is offered, no two findings have the same code and file. -/
theorem distinctSubjects_run {operations : List Operation}
    (hoffers : ∀ operation ∈ operations, ∃ diagnostic, operation = .offer diagnostic)
    (hdistinct : DistinctSubjects log.entries) : DistinctSubjects (log.run operations).entries := by
  induction operations generalizing log with
  | nil => exact hdistinct
  | cons operation operations ih =>
      simp only [List.mem_cons, forall_eq_or_imp] at hoffers
      obtain ⟨⟨diagnostic, rfl⟩, hrest⟩ := hoffers
      exact ih hrest (distinctSubjects_offer hdistinct)

end Offers

end Log

namespace Report

/-- Holds of a report that deals given findings out by severity. -/
structure Deals (report : Report) (findings : List Diagnostic) : Prop where
  errors_sublist : report.errors.Sublist findings
  errors_severity : ∀ diagnostic ∈ report.errors, diagnostic.severity = .error
  warnings_sublist : report.warnings.Sublist findings
  warnings_severity : ∀ diagnostic ∈ report.warnings, diagnostic.severity = .warning
  notices_sublist : report.notices.Sublist findings
  notices_severity : ∀ diagnostic ∈ report.notices, diagnostic.severity = .notice
  /-- Nothing is lost and nothing is shown twice. -/
  perm : report.diagnostics.Perm findings

variable (log : Log) (metadata : Option Metadata)

theorem perm_diagnostics_ofLog : (ofLog log metadata).diagnostics.Perm log.entries := by
  obtain ⟨entries⟩ := log
  simp only [diagnostics, ofLog, Log.ofSeverity, List.append_assoc]
  induction entries with
  | nil => exact .refl _
  | cons diagnostic entries ih =>
      cases hseverity : diagnostic.severity with
      | error => simpa [hseverity] using ih
      | warning => simpa [hseverity] using List.perm_middle.trans (ih.cons diagnostic)
      | notice =>
          simpa [hseverity] using
            (List.perm_middle.append_left _).trans (List.perm_middle.trans (ih.cons diagnostic))

theorem deals_ofLog : (ofLog log metadata).Deals log.entries where
  errors_sublist := List.filter_sublist
  errors_severity := by simp [ofLog, Log.ofSeverity]
  warnings_sublist := List.filter_sublist
  warnings_severity := by simp [ofLog, Log.ofSeverity]
  notices_sublist := List.filter_sublist
  notices_severity := by simp [ofLog, Log.ofSeverity]
  perm := perm_diagnostics_ofLog log metadata

theorem size_ofLog : (ofLog log metadata).size = log.size :=
  (perm_diagnostics_ofLog log metadata).length_eq

theorem valid_ofLog_iff :
    (ofLog log metadata).valid = true ↔
      (ofLog log metadata).errors = [] ∧
        ∀ diagnostic ∈ (ofLog log metadata).diagnostics,
          diagnostic.code.alwaysInvalidates = false := by
  have hvalid : (ofLog log metadata).valid = true ↔ ∀ diagnostic ∈ log.entries,
      diagnostic.severity ≠ .error ∧ diagnostic.code.alwaysInvalidates = false := by
    simp [ofLog, Log.isValid, Diagnostic.invalidates, Diagnostic.isError]
  have herrors : (ofLog log metadata).errors = [] ↔
      ∀ diagnostic ∈ log.entries, diagnostic.severity ≠ .error := by
    simp [ofLog, Log.ofSeverity]
  simp only [hvalid, herrors, mem_diagnostics_ofLog, imp_and, forall_and]

end Report

namespace Log

/-- Whatever operations made a log and whatever operations follow: the log is the front of the later
log; what is added, what extends the log and an offer that is taken come to its end; an offer is
refused exactly for an earlier finding of its code and file, and then nothing changes; offers alone
leave no two such findings; the report deals the log out by severity; it is valid unless it has an
error or a finding of a code that always invalidates, and once it is not it never will be. -/
theorem report_run (before after : List Operation) (metadata : Option Metadata) :
    let log := empty.run before
    let later := log.run after
    let report := Report.ofLog log metadata
    log.entries <+: later.entries ∧
    (∀ diagnostic, (log.apply (.add diagnostic)).entries = log.entries ++ [diagnostic]) ∧
    (∀ diagnostics, (log.apply (.extend diagnostics)).entries = log.entries ++ diagnostics) ∧
    (∀ diagnostic, (log.offer diagnostic).1 = true →
      (log.apply (.offer diagnostic)).entries = log.entries ++ [diagnostic]) ∧
    (∀ diagnostic,
      ((log.offer diagnostic).1 = false ↔
        ∃ entry ∈ log.entries, entry.code = diagnostic.code ∧ entry.file = diagnostic.file) ∧
      ((log.offer diagnostic).1 = false → (log.offer diagnostic).2 = log) ∧
      ((log.offer diagnostic).1 = true → (log.offer diagnostic).2 = log.add diagnostic)) ∧
    ((∀ operation ∈ before, ∃ diagnostic, operation = .offer diagnostic) →
      DistinctSubjects log.entries) ∧
    report.Deals log.entries ∧ report.size = log.size ∧
    (report.valid = true ↔ report.errors = [] ∧
      ∀ diagnostic ∈ report.diagnostics, diagnostic.code.alwaysInvalidates = false) ∧
    (report.valid = false → (Report.ofLog later metadata).valid = false) := by
  intro log later report
  refine ⟨prefix_run after, entries_add log, entries_extend log,
    fun diagnostic => entries_offer_of_taken, fun diagnostic => ?_, fun hoffers => ?_,
    Report.deals_ofLog log metadata, Report.size_ofLog log metadata,
    Report.valid_ofLog_iff log metadata, isValid_run_eq_false after⟩
  · exact ⟨offer_eq_false_iff, offer_of_refused, offer_of_taken⟩
  · exact distinctSubjects_run hoffers List.Pairwise.nil

/-- A warning about a bad permission makes the log invalid, and a second one is refused. -/
example :
    let bad : Diagnostic := ⟨.manifestBadPermission, .warning, "", none, none⟩
    let again : Diagnostic := ⟨.manifestBadPermission, .notice, "", none, none⟩
    (empty.run [.offer bad, .offer again]).entries = [bad] ∧
      (Report.ofLog (empty.run [.offer bad, .offer again]) none).valid = false := by
  decide

end Log
end ExtensionLint
