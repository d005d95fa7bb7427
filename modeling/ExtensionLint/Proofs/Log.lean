import ExtensionLint.Log

/-!
What a log reports and what its report shows. A log only grows at its end. A finding is left out only
for one of its code and file, so which codes are reported about which files does not depend on what
was left out; and the report shows every finding of the log once, under its severity.
-/

namespace ExtensionLint

/-- Holds of the codes and files that some of the findings have. -/
def Reported (findings : List Diagnostic) (code : Code) (file : Option String) : Prop :=
  ∃ diagnostic ∈ findings, diagnostic.code = code ∧ diagnostic.file = file

section Reported

variable {code : Code} {file : Option String}

theorem not_reported_nil : ¬Reported [] code file := by
  rintro ⟨diagnostic, hdiagnostic, -⟩
  cases hdiagnostic

theorem reported_singleton {diagnostic : Diagnostic} :
    Reported [diagnostic] code file ↔ diagnostic.code = code ∧ diagnostic.file = file := by
  simp [Reported]

theorem reported_append {first second : List Diagnostic} :
    Reported (first ++ second) code file ↔ Reported first code file ∨ Reported second code file := by
  simp only [Reported, List.mem_append, or_and_right, exists_or]

theorem reported_flatMap {α : Type} {items : List α} {give : α → List Diagnostic} :
    Reported (items.flatMap give) code file ↔ ∃ item ∈ items, Reported (give item) code file := by
  constructor
  · rintro ⟨diagnostic, hdiagnostic, hsubject⟩
    obtain ⟨item, hitem, hgive⟩ := List.mem_flatMap.mp hdiagnostic
    exact ⟨item, hitem, diagnostic, hgive, hsubject⟩
  · rintro ⟨item, hitem, diagnostic, hgive, hsubject⟩
    exact ⟨diagnostic, List.mem_flatMap.mpr ⟨item, hitem, hgive⟩, hsubject⟩

end Reported

namespace Log

theorem prefix_addNew (log : Log) (diagnostic : Diagnostic) :
    log.entries <+: (log.addNew diagnostic).entries := by
  cases hhas : log.has diagnostic with
  | true => exact (addNew_of_has hhas).symm ▸ List.prefix_rfl
  | false =>
      rw [addNew_of_not_has hhas, entries_add]
      exact List.prefix_append _ _

theorem prefix_addAllNew (log : Log) (diagnostics : List Diagnostic) :
    log.entries <+: (log.addAllNew diagnostics).entries := by
  induction diagnostics generalizing log with
  | nil => exact List.prefix_rfl
  | cons diagnostic diagnostics ih =>
      exact (prefix_addNew log diagnostic).trans (ih (log.addNew diagnostic))

theorem addAllNew_cons (log : Log) (diagnostic : Diagnostic) (diagnostics : List Diagnostic) :
    log.addAllNew (diagnostic :: diagnostics) = (log.addNew diagnostic).addAllNew diagnostics := rfl

theorem addAllNew_append (log : Log) (first second : List Diagnostic) :
    log.addAllNew (first ++ second) = (log.addAllNew first).addAllNew second :=
  List.foldl_append

theorem foldl_addAllNew {α : Type} (give : α → List Diagnostic) (items : List α) (log : Log) :
    items.foldl (fun log item => log.addAllNew (give item)) log =
      log.addAllNew (items.flatMap give) := by
  induction items generalizing log with
  | nil => rfl
  | cons item items ih => rw [List.foldl_cons, ih, List.flatMap_cons, addAllNew_append]

theorem has_iff_reported {log : Log} {diagnostic : Diagnostic} :
    log.has diagnostic = true ↔ Reported log.entries diagnostic.code diagnostic.file := by
  simp only [has, Reported, Diagnostic.sameSubject, List.any_eq_true, Bool.and_eq_true,
    decide_eq_true_eq]
  constructor
  · rintro ⟨entry, hentry, hcode, hfile⟩
    exact ⟨entry, hentry, hcode.symm, hfile.symm⟩
  · rintro ⟨entry, hentry, hcode, hfile⟩
    exact ⟨entry, hentry, hcode.symm, hfile.symm⟩

theorem reported_addNew {log : Log} {diagnostic : Diagnostic} {code : Code} {file : Option String} :
    Reported (log.addNew diagnostic).entries code file ↔
      Reported (log.entries ++ [diagnostic]) code file := by
  cases hhas : log.has diagnostic with
  | false => rw [addNew_of_not_has hhas, entries_add]
  | true =>
      rw [addNew_of_has hhas, reported_append, reported_singleton]
      constructor
      · exact Or.inl
      · rintro (h | ⟨rfl, rfl⟩)
        · exact h
        · exact has_iff_reported.mp hhas

theorem reported_addAllNew {log : Log} {diagnostics : List Diagnostic} {code : Code}
    {file : Option String} :
    Reported (log.addAllNew diagnostics).entries code file ↔
      Reported (log.entries ++ diagnostics) code file := by
  induction diagnostics generalizing log with
  | nil => simp [addAllNew]
  | cons diagnostic diagnostics ih =>
      rw [addAllNew_cons, ih, reported_append, reported_addNew, ← reported_append, List.append_assoc,
        List.singleton_append]

end Log

namespace Report

variable {log : Log} {metadata : Option Metadata}

theorem mem_diagnostics_ofLog {diagnostic : Diagnostic} :
    diagnostic ∈ (ofLog log metadata).diagnostics ↔ diagnostic ∈ log.entries := by
  simp only [diagnostics, ofLog, Log.ofSeverity, List.mem_append, List.mem_filter, decide_eq_true_eq]
  constructor
  · rintro ((⟨h, _⟩ | ⟨h, _⟩) | ⟨h, _⟩) <;> exact h
  · intro h
    cases hseverity : diagnostic.severity with
    | error => exact .inl (.inl ⟨h, rfl⟩)
    | warning => exact .inl (.inr ⟨h, rfl⟩)
    | notice => exact .inr ⟨h, rfl⟩

theorem reported_diagnostics_ofLog {code : Code} {file : Option String} :
    Reported (ofLog log metadata).diagnostics code file ↔ Reported log.entries code file := by
  simp only [Reported, mem_diagnostics_ofLog]

/-- Findings of one severity stand in the report in their order. -/
theorem sublist_diagnostics_ofLog {found : List Diagnostic} {severity : Severity}
    (hfound : found.Sublist log.entries)
    (hseverity : ∀ diagnostic ∈ found, diagnostic.severity = severity) :
    found.Sublist (ofLog log metadata).diagnostics := by
  have hpart : found.Sublist (log.ofSeverity severity) := by
    have hfilter := hfound.filter fun diagnostic => decide (diagnostic.severity = severity)
    rwa [List.filter_eq_self.mpr fun diagnostic h => decide_eq_true (hseverity diagnostic h)] at hfilter
  refine hpart.trans ?_
  cases severity with
  | error => exact (List.sublist_append_left _ _).trans (List.sublist_append_left _ _)
  | warning => exact (List.sublist_append_right _ _).trans (List.sublist_append_left _ _)
  | notice => exact List.sublist_append_right _ _

theorem valid_ofLog_eq_false {diagnostic : Diagnostic} (hmem : diagnostic ∈ log.entries)
    (hinvalidates : diagnostic.invalidates = true) : (ofLog log metadata).valid = false := by
  rw [ofLog, Log.isValid, List.all_eq_false]
  exact ⟨diagnostic, hmem, by simp [hinvalidates]⟩

end Report
end ExtensionLint
