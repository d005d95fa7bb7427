import ExtensionLint.Package.Memory
import ExtensionLint.Proofs.Codes
import ExtensionLint.Proofs.History
import ExtensionLint.Proofs.IconDeclarations
import ExtensionLint.Proofs.Lists
import ExtensionLint.Proofs.Members
import Mathlib.Data.List.Pairwise

/-!
Schedules of the checks of images. The checks of one call run side by side and share a log: each
offers its findings in its own order, and a schedule decides which check goes on. A log takes the
first finding of each code and file that it does not have, so schedules could differ in what is
taken. They do not, as far as the outcome goes: findings about one image of a theme under several
properties differ in their texts only, and findings about different icons never meet.
-/

namespace ExtensionLint

/-- Holds of the codes, severities and files that some of the findings have. -/
def ReportedAs (findings : List Diagnostic) (code : Code) (severity : Severity)
    (file : Option String) : Prop :=
  ∃ diagnostic ∈ findings,
    diagnostic.code = code ∧ diagnostic.severity = severity ∧ diagnostic.file = file

/-- Holds of findings that are equally severe wherever they have the same code and file. -/
def EvenSeverity (findings : List Diagnostic) : Prop :=
  ∀ first ∈ findings, ∀ second ∈ findings,
    first.code = second.code → first.file = second.file → first.severity = second.severity

/-- Findings without a code and file in common are equally severe where they have one. -/
theorem DistinctSubjects.evenSeverity {findings : List Diagnostic}
    (hdistinct : DistinctSubjects findings) : EvenSeverity findings := by
  intro first hfirst second hsecond hcode hfile
  by_contra hseverity
  have hne : first ≠ second := fun heq => hseverity (heq ▸ rfl)
  have : Std.Symm fun a b : Diagnostic => ¬(a.code = b.code ∧ a.file = b.file) :=
    ⟨fun a b h hsame => h ⟨hsame.1.symm, hsame.2.symm⟩⟩
  exact List.Pairwise.forall hdistinct hfirst hsecond hne ⟨hcode, hfile⟩

namespace Log

/-- Holds of logs that agree on what is reported about which file, how severely, and on whether the
package is valid. -/
structure SameOutcome (log other : Log) : Prop where
  reported : ∀ code severity file,
    ReportedAs log.entries code severity file ↔ ReportedAs other.entries code severity file
  valid : log.isValid = other.isValid

variable {log other : Log} {findings : List Diagnostic} {code : Code} {severity : Severity}
  {file : Option String}

theorem isValid_eq_false_iff :
    log.isValid = false ↔ ∃ code severity file, ReportedAs log.entries code severity file ∧
      (severity = .error ∨ code.alwaysInvalidates = true) := by
  simp only [isValid, List.all_eq_false, Bool.not_eq_true', Bool.not_eq_false,
    Diagnostic.invalidates, Diagnostic.isError, Bool.or_eq_true, decide_eq_true_eq]
  constructor
  · rintro ⟨diagnostic, hmem, hinvalidates⟩
    exact ⟨_, _, _, ⟨diagnostic, hmem, rfl, rfl, rfl⟩, hinvalidates⟩
  · rintro ⟨code, severity, file, ⟨diagnostic, hmem, rfl, rfl, rfl⟩, hinvalidates⟩
    exact ⟨diagnostic, hmem, hinvalidates⟩

/-- Whether a log is valid depends on codes and severities only. -/
theorem SameOutcome.of_reported
    (h : ∀ code severity file,
      ReportedAs log.entries code severity file ↔ ReportedAs other.entries code severity file) :
    log.SameOutcome other := by
  refine ⟨h, ?_⟩
  have hinvalid : log.isValid = false ↔ other.isValid = false := by
    rw [isValid_eq_false_iff, isValid_eq_false_iff]
    simp only [h]
  cases hlog : log.isValid with
  | false => exact (hinvalid.mp hlog).symm
  | true =>
      cases hother : other.isValid with
      | false => exact (hinvalid.mpr hother) ▸ hlog.symm
      | true => rfl

/-- One offer adds what it is about, unless the log has a finding of its code and file. -/
theorem reportedAs_addNew {diagnostic : Diagnostic} :
    ReportedAs (log.addNew diagnostic).entries code severity file ↔
      ReportedAs log.entries code severity file ∨
        ¬Reported log.entries diagnostic.code diagnostic.file ∧ diagnostic.code = code ∧
          diagnostic.severity = severity ∧ diagnostic.file = file := by
  cases hhas : log.has diagnostic with
  | true =>
      rw [addNew_of_has hhas]
      simp [has_iff_reported.mp hhas]
  | false =>
      have hnew : ¬Reported log.entries diagnostic.code diagnostic.file := fun h => by
        rw [has_iff_reported.mpr h] at hhas
        cases hhas
      rw [addNew_of_not_has hhas, entries_add]
      simp [ReportedAs, hnew, or_and_right, exists_or]

/-- Of findings that are equally severe where they have the same code and file, a log takes what
they report about codes and files that it does not have, in whatever order they come. -/
theorem reportedAs_addAllNew (heven : EvenSeverity findings) :
    ReportedAs (log.addAllNew findings).entries code severity file ↔
      ReportedAs log.entries code severity file ∨
        ¬Reported log.entries code file ∧ ReportedAs findings code severity file := by
  induction findings generalizing log with
  | nil => simp [addAllNew, ReportedAs]
  | cons diagnostic findings ih =>
      have htail : EvenSeverity findings := fun first hfirst second hsecond =>
        heven first (List.mem_cons_of_mem _ hfirst) second (List.mem_cons_of_mem _ hsecond)
      have hsplit : ReportedAs (diagnostic :: findings) code severity file ↔
          (diagnostic.code = code ∧ diagnostic.severity = severity ∧ diagnostic.file = file) ∨
            ReportedAs findings code severity file := by
        simp [ReportedAs]
      rw [addAllNew_cons, ih htail, reportedAs_addNew, reported_addNew, reported_append,
        reported_singleton, hsplit]
      constructor
      · rintro ((hlog | ⟨hnew, rfl, rfl, rfl⟩) | ⟨hnew, hlater⟩)
        · exact .inl hlog
        · exact .inr ⟨hnew, .inl ⟨rfl, rfl, rfl⟩⟩
        · exact .inr ⟨fun h => hnew (.inl h), .inr hlater⟩
      · rintro (hlog | ⟨hnew, ⟨rfl, rfl, rfl⟩ | hlater⟩)
        · exact .inl (.inl hlog)
        · exact .inl (.inr ⟨hnew, rfl, rfl, rfl⟩)
        · by_cases hsame : diagnostic.code = code ∧ diagnostic.file = file
          · -- The later finding is refused, but it is as severe as this one.
            obtain ⟨later, hmem, rfl, rfl, rfl⟩ := hlater
            have hseverity := heven diagnostic (List.mem_cons_self ..) later
              (List.mem_cons_of_mem _ hmem) hsame.1 hsame.2
            refine .inl (.inr ⟨?_, hsame.1, hseverity, hsame.2⟩)
            rwa [hsame.1, hsame.2]
          · exact .inr ⟨not_or.mpr ⟨hnew, hsame⟩, hlater⟩

/-- Of findings without a code and file in common a log takes those that it does not have. -/
theorem entries_addAllNew (hdistinct : DistinctSubjects findings) :
    (log.addAllNew findings).entries =
      log.entries ++ findings.filter fun diagnostic => !log.has diagnostic := by
  induction findings generalizing log with
  | nil => simp [addAllNew]
  | cons diagnostic findings ih =>
      obtain ⟨hfirst, htail⟩ := List.pairwise_cons.mp hdistinct
      rw [addAllNew_cons, ih htail]
      cases hhas : log.has diagnostic with
      | true => rw [addNew_of_has hhas, List.filter_cons_of_neg (by simp [hhas])]
      | false =>
          have hothers : ∀ later ∈ findings,
              (!(log.add diagnostic).has later) = !log.has later := by
            intro later hlater
            have hother : later.sameSubject diagnostic = false := by
              refine Bool.eq_false_iff.mpr fun hsame => hfirst later hlater ?_
              obtain ⟨hcode, hfile⟩ :
                  later.code = diagnostic.code ∧ later.file = diagnostic.file := by
                simpa [Diagnostic.sameSubject] using hsame
              exact ⟨hcode.symm, hfile.symm⟩
            simp [has, hother]
          rw [addNew_of_not_has hhas, List.filter_cons_of_pos (by simp [hhas]), entries_add,
            List.filter_congr hothers, List.append_assoc, List.singleton_append]

/-- Schedules of the same findings have the same outcome. -/
theorem sameOutcome_addAllNew {schedule : List Diagnostic} (hperm : schedule.Perm findings)
    (heven : EvenSeverity findings) :
    (log.addAllNew schedule).SameOutcome (log.addAllNew findings) := by
  have hschedule : EvenSeverity schedule := fun first hfirst second hsecond =>
    heven first (hperm.subset hfirst) second (hperm.subset hsecond)
  refine .of_reported fun code severity file => ?_
  rw [reportedAs_addAllNew hschedule, reportedAs_addAllNew heven]
  simp only [ReportedAs, hperm.mem_iff]

theorem perm_entries_addAllNew {schedule : List Diagnostic} (hperm : schedule.Perm findings)
    (hdistinct : DistinctSubjects findings) :
    (log.addAllNew schedule).entries.Perm (log.addAllNew findings).entries := by
  have hschedule : DistinctSubjects schedule :=
    (hperm.pairwise_iff fun h hsame => h ⟨hsame.1.symm, hsame.2.symm⟩).mpr hdistinct
  rw [entries_addAllNew hschedule, entries_addAllNew hdistinct]
  exact (hperm.filter _).append_left _

end Log

namespace Asset

namespace Checker

variable (checker : Checker)

theorem subject_shapeFindings (path : String) (info : ImageInfo) :
    ∀ diagnostic ∈ checker.shapeFindings path info,
      diagnostic.code = .iconNotSquare ∧ diagnostic.file = some path := by
  intro diagnostic hdiagnostic
  rw [shapeFindings] at hdiagnostic
  split at hdiagnostic
  · cases hdiagnostic
  · obtain rfl := List.mem_singleton.mp hdiagnostic
    split <;> exact ⟨rfl, rfl⟩

theorem subject_sizeFindings (icon : IconReference) (info : ImageInfo) :
    ∀ diagnostic ∈ checker.sizeFindings icon info,
      diagnostic.code = .iconSizeInvalid ∧ diagnostic.file = some icon.path := by
  fun_cases sizeFindings checker icon info with
  | case1 | case2 => exact fun diagnostic h => absurd h List.not_mem_nil
  | case3 =>
      intro diagnostic hdiagnostic
      obtain rfl := List.mem_singleton.mp hdiagnostic
      exact ⟨rfl, rfl⟩

theorem file_checkIcon (icon : IconReference) :
    ∀ diagnostic ∈ checker.checkIcon icon, diagnostic.file = some icon.path := by
  have hfinding : ∀ code values, ∀ diagnostic ∈ [checker.finding code values icon.path],
      diagnostic.file = some icon.path := by
    intro code values diagnostic hdiagnostic
    obtain rfl := List.mem_singleton.mp hdiagnostic
    rfl
  fun_cases checkIcon checker icon with
  | case1 | case2 | case3 => exact hfinding _ _
  | case4 path hhas hextension info hinfo =>
      intro diagnostic hdiagnostic
      rcases List.mem_append.mp hdiagnostic with hshape | hsize
      · exact (checker.subject_shapeFindings _ _ diagnostic hshape).2
      · exact (checker.subject_sizeFindings _ _ diagnostic hsize).2

theorem distinct_checkIcon (icon : IconReference) :
    DistinctSubjects (checker.checkIcon icon) := by
  fun_cases checkIcon checker icon with
  | case1 | case2 | case3 => exact List.pairwise_singleton _ _
  | case4 path hhas hextension info hinfo =>
      refine List.pairwise_append.mpr ⟨?_, ?_, ?_⟩
      · rw [shapeFindings]
        split
        · exact List.Pairwise.nil
        · exact List.pairwise_singleton _ _
      · fun_cases sizeFindings checker icon info with
        | case1 | case2 => exact List.Pairwise.nil
        | case3 => exact List.pairwise_singleton _ _
      · intro shape hshape size hsize hsame
        obtain ⟨hnotSquare, -⟩ := checker.subject_shapeFindings _ _ shape hshape
        obtain ⟨hsizeInvalid, -⟩ := checker.subject_sizeFindings _ _ size hsize
        rw [hnotSquare, hsizeInvalid] at hsame
        cases hsame.1

theorem distinct_checkIcons (manifest : Manifest) :
    DistinctSubjects ((icons manifest).flatMap checker.checkIcon) := by
  refine List.pairwise_flatMap.mpr ⟨fun icon _ => checker.distinct_checkIcon icon, ?_⟩
  refine (pairwise_icons manifest).imp fun {first second} hless a ha b hb hsame => ?_
  have hpath : some first.path = some second.path := by
    rw [← checker.file_checkIcon first a ha, ← checker.file_checkIcon second b hb, hsame.2]
  exact absurd (Option.some.inj hpath) (ne_of_lt hless)

/-- A finding about an image of a theme is as severe as the catalog says. -/
theorem severity_checkThemeImage (image : ThemeImageReference) :
    ∀ diagnostic ∈ checker.checkThemeImage image,
      diagnostic.severity = (checker.catalog.template diagnostic.code).severity := by
  have hfinding : ∀ code values, ∀ diagnostic ∈ [checker.finding code values image.path],
      diagnostic.severity = (checker.catalog.template diagnostic.code).severity := by
    intro code values diagnostic hdiagnostic
    obtain rfl := List.mem_singleton.mp hdiagnostic
    rfl
  fun_cases checkThemeImage checker image with
  | case1 | case2 | case3 => exact hfinding _ _
  | case4 path hhas expected hexpected info hinfo =>
      rw [mimeFindings]
      split
      · exact hfinding _ _
      · split
        · exact hfinding _ _
        · exact fun diagnostic h => absurd h List.not_mem_nil

theorem evenSeverity_checkThemeImages (images : List ThemeImageReference) :
    EvenSeverity (images.flatMap checker.checkThemeImage) := by
  intro first hfirst second hsecond hcode _
  obtain ⟨image, -, himage⟩ := List.mem_flatMap.mp hfirst
  obtain ⟨other, -, hother⟩ := List.mem_flatMap.mp hsecond
  rw [checker.severity_checkThemeImage image first himage,
    checker.severity_checkThemeImage other second hother, hcode]

/-- Checks of images that run side by side report the same about the same files, equally severely,
as the checks one after the other, and leave the package valid or invalid alike. Checks of icons
even make the same findings, each as often. -/
theorem checks_interleaved (manifest : Manifest) (log : Log) :
    (∀ schedule, Interleaves ((icons manifest).map checker.checkIcon) schedule →
      (log.addAllNew schedule).SameOutcome (checker.checkIcons (icons manifest) log) ∧
      (log.addAllNew schedule).entries.Perm (checker.checkIcons (icons manifest) log).entries) ∧
    ∀ schedule, Interleaves ((themeImages manifest).map checker.checkThemeImage) schedule →
      (log.addAllNew schedule).SameOutcome
        (checker.checkThemeImages (themeImages manifest) log) := by
  rw [checkIcons_eq, checkThemeImages_eq]
  refine ⟨fun schedule hschedule => ?_, fun schedule hschedule => ?_⟩
  · have hdistinct := checker.distinct_checkIcons manifest
    exact ⟨Log.sameOutcome_addAllNew hschedule.perm hdistinct.evenSeverity,
      Log.perm_entries_addAllNew hschedule.perm hdistinct⟩
  · exact Log.sameOutcome_addAllNew hschedule.perm (checker.evenSeverity_checkThemeImages _)

/-- Two icons and two properties with one image, all missing, are checked in the other order. -/
theorem checks_interleaved_reversed :
    let checker : Checker := ⟨MemoryPackage.empty.toPackage, .header, .standard⟩
    let manifest := Manifest.ofProperties
      [("icons", .object [("16", .string "a.png"), ("32", .string "b.png")]),
        ("theme", .object [("images", .object
          [("frame", .string "x.png"), ("tab", .string "./x.png")])])]
    let iconMissing := fun path => checker.finding .manifestIconNotFound [("path", path)] path
    let imageMissing := fun property => checker.finding .manifestThemeImageNotFound
      [("property", property), ("path", "x.png")] "x.png"
    let iconSchedule := [iconMissing "b.png", iconMissing "a.png"]
    let imageSchedule := [imageMissing "theme.images.tab", imageMissing "theme.images.frame"]
    Interleaves ((icons manifest).map checker.checkIcon) iconSchedule ∧
    (Log.empty.addAllNew iconSchedule).SameOutcome (checker.checkIcons (icons manifest) .empty) ∧
    (Log.empty.addAllNew iconSchedule).entries.Perm
      (checker.checkIcons (icons manifest) .empty).entries ∧
    Interleaves ((themeImages manifest).map checker.checkThemeImage) imageSchedule ∧
    (Log.empty.addAllNew imageSchedule).SameOutcome
      (checker.checkThemeImages (themeImages manifest) .empty) := by
  intro checker manifest iconMissing imageMissing iconSchedule imageSchedule
  have hreversed : ∀ first second : Diagnostic, Interleaves [[first], [second]] [second, first] :=
    fun first second => @Interleaves.next _ [[first]] [] second [] [first]
      (@Interleaves.next _ [] [[]] first [] [] (.done (by simp)))
  have hicons : (icons manifest).map checker.checkIcon =
      [[iconMissing "a.png"], [iconMissing "b.png"]] := by decide +kernel
  have himages : (themeImages manifest).map checker.checkThemeImage =
      [[imageMissing "theme.images.frame"], [imageMissing "theme.images.tab"]] := by decide +kernel
  have hiconSchedule : Interleaves ((icons manifest).map checker.checkIcon) iconSchedule :=
    hicons ▸ hreversed _ _
  have himageSchedule : Interleaves ((themeImages manifest).map checker.checkThemeImage)
      imageSchedule := himages ▸ hreversed _ _
  obtain ⟨hiconOutcome, himageOutcome⟩ := checker.checks_interleaved manifest .empty
  exact ⟨hiconSchedule, (hiconOutcome _ hiconSchedule).1, (hiconOutcome _ hiconSchedule).2,
    himageSchedule, himageOutcome _ himageSchedule⟩

end Checker
end Asset
end ExtensionLint
