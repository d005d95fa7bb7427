import ExtensionLint.Package.Memory
import ExtensionLint.Proofs.Findings
import ExtensionLint.Proofs.VersionOrder
import Mathlib.Data.List.Flatten

/-!
Permissions that require a newer version. The table of the context says which version a permission
requires, and the oldest admitted version has to meet it. A later version meets what an earlier one
meets, whatever the texts of the three versions are, so raising it only takes findings out; and
without one every permission of the table that is asked for gives its finding.
-/

namespace ExtensionLint

/-- The permissions that a manifest asks for, those that it can do without last. -/
def Manifest.requested (manifest : Manifest) : List String :=
  Json.stringsOf (manifest.get? "permissions") ++
    Json.stringsOf (manifest.get? "optional_permissions")

/-- Holds of a manifest and one that asks for the same permissions and declares no oldest
version. -/
structure Manifest.Undemanding (manifest bare : Manifest) : Prop where
  lists : ∀ list ∈ ["permissions", "optional_permissions"], bare.get? list = manifest.get? list
  minVersion : bare.minVersion? = none

/-- Every manifest can do without an oldest version. -/
theorem Manifest.exists_undemanding (manifest : Manifest) : ∃ bare, manifest.Undemanding bare := by
  refine ⟨{ manifest with properties := manifest.properties.erase "applications" }, ?_, ?_⟩
  · intro list hlist
    have hne : list ≠ "applications" := by
      rintro rfl
      exact absurd hlist (by decide)
    exact Json.Members.get?_erase_of_ne hne
  · have htokens : Json.Pointer.tokens? "/applications/gecko/strict_min_version" =
        some ["applications".toList, "gecko".toList, "strict_min_version".toList] := by decide
    rw [minVersion?, stringAt?, pointer?, htokens]
    simp only [String.ofList_toList, get?, Json.Members.get?_erase_self, Option.bind_none]

namespace RuleSetting

/-- A setting whose context has an oldest version, or none. -/
def demanding (setting : RuleSetting) (minVersion : Option String) : RuleSetting :=
  { setting with context := { setting.context with minVersion := minVersion } }

/-- The findings of a run about permissions that require a newer version. -/
def restrictions (setting : RuleSetting) (manifest : Manifest) : List Diagnostic :=
  withCode .restrictedPermission (setting.run manifest)

section Meets

variable {lower higher required : String}

theorem meets_some_iff :
    meets (some lower) required = true ↔ (Version.compare required lower).isLE := by
  have hswap : Version.compare lower required = (Version.compare required lower).swap :=
    Std.OrientedCmp.eq_swap
  rw [meets, Option.any_some, hswap]
  cases Version.compare required lower <;> decide

theorem meets_of_later (hlater : Version.compare lower higher ≠ .gt)
    (h : meets (some lower) required = true) : meets (some higher) required = true :=
  meets_some_iff.mpr
    (Std.TransCmp.isLE_trans (meets_some_iff.mp h) (Ordering.isLE_iff_ne_gt.mpr hlater))

end Meets

section Restrictions

variable (setting : RuleSetting) (manifest : Manifest) {declared other : Option String}

/-- One permission gives the finding for an oldest version if it gives one for a version that meets
more. -/
theorem sublist_restrictedPermission
    (h : ∀ required, meets declared required = true → meets other required = true)
    (permission : String) :
    (setting.restrictedPermission other permission).Sublist
      (setting.restrictedPermission declared permission) := by
  rw [restrictedPermission, restrictedPermission]
  cases setting.context.restrictedPermissions.lookup permission with
  | none => exact List.nil_sublist _
  | some required =>
      by_cases hother : meets other required = true
      · simp only [if_pos hother, List.nil_sublist]
      · have hdeclared : ¬meets declared required = true := fun hmeets => hother (h required hmeets)
        simp only [if_neg hother, if_neg hdeclared, List.Sublist.refl]

/-- Without an oldest version a permission gives a finding if it is in the table. -/
theorem restrictedPermission_none (permission : String) :
    setting.restrictedPermission none permission =
      ((setting.context.restrictedPermissions.lookup permission).map fun required =>
        setting.finding .restrictedPermission
          [("permission", permission), ("min_version", required)]).toList := by
  rw [restrictedPermission]
  cases setting.context.restrictedPermissions.lookup permission <;> rfl

theorem restrictions_eq :
    setting.restrictions manifest =
      manifest.requested.flatMap (setting.restrictedPermission (setting.minVersion? manifest)) := by
  have hlists : restrictedLists.flatMap (fun list => Json.stringsOf (manifest.get? list)) =
      manifest.requested := by
    simp [restrictedLists, Manifest.requested]
  have hcodes := setting.ofCodes_checkRestrictedPermissions manifest
  have hall : withCode .restrictedPermission (setting.checkRestrictedPermissions manifest) =
      setting.checkRestrictedPermissions manifest := by
    refine List.filter_eq_self.mpr fun diagnostic hdiagnostic => decide_eq_true ?_
    exact List.mem_singleton.mp (hcodes diagnostic hdiagnostic)
  have hrule : Code.restrictedPermission ∈ Rule.restrictedPermissions.codes := by decide
  rw [restrictions, setting.withCode_run manifest hrule, Rule.check, hall,
    checkRestrictedPermissions, hlists]

/-- Without an oldest version anywhere each permission of the table that is asked for gives its
finding. -/
theorem restrictions_of_undemanding {bare : Manifest} (hbare : manifest.Undemanding bare) :
    (setting.demanding none).restrictions bare =
      manifest.requested.filterMap fun permission =>
        (setting.context.restrictedPermissions.lookup permission).map fun required =>
          setting.finding .restrictedPermission
            [("permission", permission), ("min_version", required)] := by
  have hrequested : bare.requested = manifest.requested := by
    rw [Manifest.requested, Manifest.requested, hbare.lists _ (by decide),
      hbare.lists _ (by decide)]
  have hnone : (setting.demanding none).minVersion? bare = none := hbare.minVersion
  rw [restrictions_eq, hnone, hrequested, List.filterMap_eq_flatMap_toList]
  exact List.flatMap_congr fun permission _ => restrictedPermission_none _ permission

/-- Raising the oldest version only takes findings about permissions out: what a context with a later
version finds is found with an earlier one, in the same order, and what is found with any version, or
with that of the manifest, is found where neither declares one. There it is one finding for each time
that a permission of the table stands in one of the lists. -/
theorem run_restrictions :
    (∀ lower higher, Version.compare lower higher ≠ .gt →
      ((setting.demanding (some higher)).restrictions manifest).Sublist
        ((setting.demanding (some lower)).restrictions manifest)) ∧
    (∃ bare, manifest.Undemanding bare) ∧
    ∀ bare, manifest.Undemanding bare →
      (∀ minVersion, ((setting.demanding minVersion).restrictions manifest).Sublist
        ((setting.demanding none).restrictions bare)) ∧
      (setting.demanding none).restrictions bare =
        manifest.requested.filterMap fun permission =>
          (setting.context.restrictedPermissions.lookup permission).map fun required =>
            setting.finding .restrictedPermission
              [("permission", permission), ("min_version", required)] := by
  refine ⟨fun lower higher hlater => ?_, manifest.exists_undemanding, fun bare hbare => ⟨?_, ?_⟩⟩
  · rw [restrictions_eq, restrictions_eq]
    apply List.Sublist.flatMap_right
    intro permission _
    exact setting.sublist_restrictedPermission (fun _ => meets_of_later hlater) permission
  · intro minVersion
    rw [restrictions_of_undemanding setting manifest hbare, List.filterMap_eq_flatMap_toList,
      restrictions_eq]
    apply List.Sublist.flatMap_right
    intro permission _
    rw [← restrictedPermission_none]
    refine setting.sublist_restrictedPermission (fun required hnone => ?_) permission
    cases hnone
  · exact restrictions_of_undemanding setting manifest hbare

/-- A permission that stands in both lists, and which the later of two versions meets. -/
theorem run_restrictions_userScripts :
    let context := { LintContext.standard with restrictedPermissions := [("userScripts", "78.0")] }
    let setting : RuleSetting :=
      ⟨.standard, .standard, .empty, context, MemoryPackage.empty.toPackage⟩
    let manifest := Manifest.ofProperties
      [("optional_permissions", .ofStrings ["userScripts"]),
        ("permissions", .array [.string "tabs", .ofNat 5, .string "userScripts"])]
    let finding := setting.finding .restrictedPermission
      [("permission", "userScripts"), ("min_version", "78.0")]
    Version.compare "78.0a1" "78" ≠ .gt ∧ manifest.Undemanding manifest ∧
      ((setting.demanding (some "78")).restrictions manifest).Sublist
        ((setting.demanding (some "78.0a1")).restrictions manifest) ∧
      ((setting.demanding (some "78.0a1")).restrictions manifest).Sublist [finding, finding] ∧
      (setting.demanding none).restrictions manifest = [finding, finding] := by
  intro context setting manifest finding
  obtain ⟨hraised, -, hbare⟩ := run_restrictions setting manifest
  have hlater : Version.compare "78.0a1" "78" ≠ .gt := by
    rw [Version.compare_eq_compareLex (n := 2) (by decide) (by decide)]
    decide
  have hundemanding : manifest.Undemanding manifest := ⟨fun _ _ => rfl, by decide⟩
  obtain ⟨hkept, hall⟩ := hbare manifest hundemanding
  have hfindings : (setting.demanding none).restrictions manifest = [finding, finding] := hall
  exact ⟨hlater, hundemanding, hraised _ _ hlater, hfindings ▸ hkept _, hfindings⟩

end Restrictions

end RuleSetting
end ExtensionLint
