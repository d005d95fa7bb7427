import ExtensionLint.Proofs.Filling
import ExtensionLint.Proofs.SupportWarnings
import Mathlib.Data.List.Flatten
import Mathlib.Data.List.Forall2
import Mathlib.Logic.Function.Basic

/-!
The check under different oldest versions. What a finding is about, its code, the key and the version
in which the platform came to know it, does not depend on the oldest version; only whether it is
reported does. So at each visit a later oldest version leaves findings out and adds none, and the walk
is the same for both.
-/

namespace ExtensionLint.Compatibility

/-- What a finding of the check is about. -/
structure Subject where
  code : Code
  key : String
  since : String
  deriving DecidableEq, Repr

namespace Subject

/-- The finding about a subject, given the oldest version of its platform. -/
def finding (catalog : Catalog) (version : String) (subject : Subject) : Diagnostic :=
  catalog.render subject.code
    [("key", subject.key), ("min_version", version), ("version_added", subject.since)]

/-- Holds of the finding about a subject on one of the platforms. -/
def ReportedBy (catalog : Catalog) (oldest : Platform → Option String) (subject : Subject)
    (diagnostic : Diagnostic) : Prop :=
  ∃ platform isPermission version, WarnsWith platform isPermission subject.code ∧
    oldest platform = some version ∧ diagnostic = subject.finding catalog version

end Subject

/-- Holds of the subjects of the findings of a check, in their order, whatever the messages say. -/
def ListsSubjects (tree : SupportTree) (manifest : Manifest) (oldest : Platform → Option String)
    (subjects : List Subject) : Prop :=
  ∀ catalog, List.Forall₂ (Subject.ReportedBy catalog oldest) subjects
    (check catalog tree manifest (oldest .desktop) (oldest .android))

section Unique

/-- A catalog whose messages show the key and the version of a finding, and nothing else. -/
def plainCatalog : Catalog :=
  ⟨fun _ => ⟨.notice, "\x7bkey\x7d", some "\x7bversion_added\x7d"⟩⟩

theorem finding_plainCatalog (subject : Subject) (version : String) :
    subject.finding plainCatalog version =
      ⟨subject.code, .notice, subject.key, some subject.since, none⟩ := by
  let values := [("key", subject.key), ("min_version", version), ("version_added", subject.since)]
  have hkey : fill values "\x7bkey\x7d" = "" ++ subject.key :=
    fill_of_last "key" (by decide) (by decide) (by decide) (by rfl)
  have hsince : fill values "\x7bversion_added\x7d" = "" ++ subject.since :=
    fill_of_last "version_added" (by decide) (by decide) (by decide) (by rfl)
  rw [String.empty_append] at hkey hsince
  simp only [Subject.finding, Catalog.render, plainCatalog, Option.map_some]
  rw [hkey, hsince]

theorem ListsSubjects.unique {tree : SupportTree} {manifest : Manifest}
    {oldest : Platform → Option String} {subjects others : List Subject}
    (h : ListsSubjects tree manifest oldest subjects)
    (hothers : ListsSubjects tree manifest oldest others) : subjects = others := by
  apply List.left_unique_forall₂' _ (h plainCatalog) (hothers plainCatalog)
  rintro first second diagnostic ⟨_, _, version, -, -, hfirst⟩ ⟨_, _, other, -, -, hsecond⟩
  rw [finding_plainCatalog] at hfirst hsecond
  obtain ⟨code, key, since⟩ := first
  obtain ⟨code', key', since'⟩ := second
  simpa using hfirst.symm.trans hsecond

end Unique

/-- The subject of the finding that a visit gives for a platform. -/
def subject? (platform : Platform) (minimum : Option Minimum) (visit : Visit) : Option Subject := do
  let support ← visit.support
  let minimum ← minimum
  let since ← since? platform support
  let major ← Version.major? since
  if major ≤ minimum.major then none
  else some ⟨code platform visit.isPermission, visit.path, since⟩

/-- The subjects of the findings that a visit gives, those for the desktop first. -/
def subjectsAt (oldest : Platform → Option String) (visit : Visit) : List Subject :=
  [Platform.desktop, .android].flatMap fun platform =>
    (subject? platform (Minimum.ofVersion? (oldest platform)) visit).toList

section Subjects

variable {platform : Platform} {minimum : Option Minimum} {visit : Visit} {subject : Subject}

theorem subject?_eq_some :
    subject? platform minimum visit = some subject ↔
      ∃ least support since major, minimum = some least ∧ visit.support = some support ∧
        since? platform support = some since ∧ Version.major? since = some major ∧
        least.major < major ∧ subject = ⟨code platform visit.isPermission, visit.path, since⟩ := by
  simp only [subject?, Option.bind_eq_bind, Option.bind_eq_some_iff]
  constructor
  · rintro ⟨support, hsupport, least, hleast, since, hsince, major, hmajor, hfound⟩
    split at hfound
    · cases hfound
    · next hnewer =>
        exact ⟨least, support, since, major, hleast, hsupport, hsince, hmajor,
          Nat.lt_of_not_le hnewer, (Option.some.inj hfound).symm⟩
  · rintro ⟨least, support, since, major, hleast, hsupport, hsince, hmajor, hnewer, rfl⟩
    exact ⟨support, hsupport, least, hleast, since, hsince, major, hmajor,
      if_neg (Nat.not_le_of_lt hnewer)⟩

theorem finding?_eq (catalog : Catalog) (least : Minimum) :
    finding? catalog platform (some least) visit =
      (subject? platform (some least) visit).map (Subject.finding catalog least.version) := by
  simp only [finding?, subject?, Option.bind_eq_bind, Option.bind_some]
  cases visit.support with
  | none => rfl
  | some support =>
      cases hsince : since? platform support with
      | none => simp [hsince]
      | some since =>
          cases hmajor : Version.major? since with
          | none => simp [hsince, hmajor]
          | some major =>
              simp only [Option.bind_some, hsince, hmajor]
              split <;> rfl

theorem forall₂_finding? (catalog : Catalog) (oldest : Platform → Option String) :
    List.Forall₂ (Subject.ReportedBy catalog oldest)
      (subject? platform (Minimum.ofVersion? (oldest platform)) visit).toList
      (finding? catalog platform (Minimum.ofVersion? (oldest platform)) visit).toList := by
  cases hminimum : Minimum.ofVersion? (oldest platform) with
  | none =>
      have hfinding : finding? catalog platform none visit = none := by
        simp [finding?]
      have hsubject : subject? platform none visit = none := by
        simp [subject?]
      rw [hfinding, hsubject]
      exact .nil
  | some least =>
      rw [finding?_eq]
      cases hsubject : subject? platform (some least) visit with
      | none => exact .nil
      | some subject =>
          obtain ⟨_, _, _, _, -, -, -, -, -, rfl⟩ := subject?_eq_some.mp hsubject
          refine .cons
            ⟨platform, visit.isPermission, least.version, warnsWith_iff.mpr rfl, ?_, rfl⟩ .nil
          exact (ofVersion?_eq_some.mp hminimum).1

/-- A later oldest version leaves subjects out and adds none. -/
theorem subject?_of_later {lower higher : Minimum} (hle : lower.major ≤ higher.major)
    (h : subject? platform (some higher) visit = some subject) :
    subject? platform (some lower) visit = some subject := by
  obtain ⟨_, support, since, major, hminimum, hsupport, hsince, hmajor, hnewer, rfl⟩ :=
    subject?_eq_some.mp h
  obtain rfl := Option.some.inj hminimum
  exact subject?_eq_some.mpr
    ⟨lower, support, since, major, rfl, hsupport, hsince, hmajor, by omega, rfl⟩

end Subjects

def subjects (tree : SupportTree) (manifest : Manifest) (oldest : Platform → Option String) :
    List Subject :=
  (manifestVisits tree manifest.properties).flatMap (subjectsAt oldest)

theorem listsSubjects_subjects (tree : SupportTree) (manifest : Manifest)
    (oldest : Platform → Option String) :
    ListsSubjects tree manifest oldest (subjects tree manifest oldest) := by
  intro catalog
  rw [subjects, check]
  induction manifestVisits tree manifest.properties with
  | nil => exact .nil
  | cons visit visits ih =>
      rw [List.flatMap_cons, List.flatMap_cons]
      refine List.rel_append ?_ ih
      rw [subjectsAt, findings, List.flatMap_cons, List.flatMap_singleton]
      exact List.rel_append (forall₂_finding? catalog oldest) (forall₂_finding? catalog oldest)

section Raised

variable {platform : Platform} {lower higher : String} {least most : Nat}

theorem sublist_subjectsAt (oldest : Platform → Option String) (visit : Visit)
    (hlower : Version.major? lower = some least) (hhigher : Version.major? higher = some most)
    (hle : least ≤ most) :
    (subjectsAt (Function.update oldest platform (some higher)) visit).Sublist
      (subjectsAt (Function.update oldest platform (some lower)) visit) := by
  apply List.Sublist.flatMap_right
  intro other _
  by_cases hsame : other = platform
  · subst hsame
    have hlow : Minimum.ofVersion? (some lower) = some ⟨lower, least⟩ :=
      ofVersion?_eq_some.mpr ⟨rfl, hlower⟩
    have hhigh : Minimum.ofVersion? (some higher) = some ⟨higher, most⟩ :=
      ofVersion?_eq_some.mpr ⟨rfl, hhigher⟩
    rw [Function.update_self, Function.update_self, hlow, hhigh]
    cases hsubject : subject? other (some ⟨higher, most⟩) visit with
    | none => exact List.nil_sublist _
    | some subject =>
        have hkept : subject? other (some ⟨lower, least⟩) visit = some subject :=
          subject?_of_later hle hsubject
        rw [hkept]
  · rw [Function.update_of_ne hsame, Function.update_of_ne hsame]

/-- Raising the oldest version of one platform, that of the other being fixed, adds no finding and
moves none: the findings of each check have their subjects, and those of the later check are some of
those of the earlier one, in their order. -/
theorem sublist_of_raised (tree : SupportTree) (manifest : Manifest)
    (oldest : Platform → Option String) (hlower : Version.major? lower = some least)
    (hhigher : Version.major? higher = some most) (hle : least ≤ most) :
    let lowered := Function.update oldest platform (some lower)
    let raised := Function.update oldest platform (some higher)
    (∃ before, ListsSubjects tree manifest lowered before) ∧
      (∃ after, ListsSubjects tree manifest raised after) ∧
      ∀ before after, ListsSubjects tree manifest lowered before →
        ListsSubjects tree manifest raised after → after.Sublist before := by
  intro lowered raised
  have hlowered := listsSubjects_subjects tree manifest lowered
  have hraised := listsSubjects_subjects tree manifest raised
  refine ⟨⟨_, hlowered⟩, ⟨_, hraised⟩, fun before after hbefore hafter => ?_⟩
  rw [hbefore.unique hlowered, hafter.unique hraised]
  apply List.Sublist.flatMap_right
  exact fun visit _ => sublist_subjectsAt oldest visit hlower hhigher hle

/-- Of two keys that are too new for version 44, one is known from version 60 on. -/
theorem sublist_of_raised_background :
    let since := fun version : String => Support.mk [⟨some version⟩] []
    let tree : SupportTree := .node none
      [("background", .node (since "45") [("service_worker", .leaf (since "121"))])]
    let manifest := Manifest.ofProperties
      [("background", .object [("service_worker", .string "worker.js")])]
    let background : Subject := ⟨.keyFirefoxUnsupportedByMinVersion, "background", "45"⟩
    let worker : Subject :=
      ⟨.keyFirefoxUnsupportedByMinVersion, "background.service_worker", "121"⟩
    let oldest := Function.update (fun _ => none) Platform.desktop
    Version.major? "44.0" = some 44 ∧ Version.major? "60.0a1" = some 60 ∧ 44 ≤ 60 ∧
      ListsSubjects tree manifest (oldest (some "44.0")) [background, worker] ∧
      ListsSubjects tree manifest (oldest (some "60.0a1")) [worker] ∧
      [worker].Sublist [background, worker] := by
  intro since tree manifest background worker oldest
  have hlower : Version.major? "44.0" = some 44 := by decide +kernel
  have hhigher : Version.major? "60.0a1" = some 60 := by decide +kernel
  have hbefore : subjects tree manifest (oldest (some "44.0")) = [background, worker] := by
    decide +kernel
  have hafter : subjects tree manifest (oldest (some "60.0a1")) = [worker] := by decide +kernel
  have hlowered := hbefore ▸ listsSubjects_subjects tree manifest (oldest (some "44.0"))
  have hraised := hafter ▸ listsSubjects_subjects tree manifest (oldest (some "60.0a1"))
  obtain ⟨-, -, hsublist⟩ :=
    sublist_of_raised tree manifest (fun _ => none) hlower hhigher (by decide)
  exact ⟨hlower, hhigher, by decide, hlowered, hraised, hsublist _ _ hlowered hraised⟩

end Raised
end ExtensionLint.Compatibility
