import ExtensionLint.Proofs.Lists
import ExtensionLint.Proofs.SupportWarnings

/-!
The findings of each platform by itself. One walk looks at both platforms and puts what it finds
into one list. Neither platform has a say in the findings of the other: under the codes of a platform
the check finds what it finds when the other platform has no oldest version, in the same order. As
each code belongs to one platform, the check is a merge of these two lists.
-/

namespace ExtensionLint

namespace Compatibility

/-- The codes of the findings for a platform, about keys and about permissions. -/
def Platform.codes : Platform → List Code
  | .desktop => [.keyFirefoxUnsupportedByMinVersion, .permissionFirefoxUnsupportedByMinVersion]
  | .android =>
      [.keyFirefoxAndroidUnsupportedByMinVersion, .permissionFirefoxAndroidUnsupportedByMinVersion]

/-- Whether a finding has one of the codes of a platform. -/
def Platform.owns (platform : Platform) (diagnostic : Diagnostic) : Bool :=
  platform.codes.contains diagnostic.code

/-- The oldest versions when only that of one platform counts. -/
def Platform.only {α : Type} (platform : Platform) (oldest : Platform → Option α) :
    Platform → Option α :=
  fun other => if other = platform then oldest other else none

section Findings

variable (catalog : Catalog) (platform : Platform) (visit : Visit)

theorem finding?_none : finding? catalog platform none visit = none := by
  cases hsupport : visit.support <;> simp [finding?, hsupport]

/-- A platform owns the findings for it and none of those for the other. -/
theorem owns_of_finding? {minimum : Option Minimum} {diagnostic : Diagnostic} {other : Platform}
    (h : finding? catalog other minimum visit = some diagnostic) :
    platform.owns diagnostic = decide (other = platform) := by
  rw [Platform.owns, code_of_finding? h]
  cases platform <;> cases other <;> cases visit.isPermission <;> rfl

theorem filter_finding? (minimum : Option Minimum) (other : Platform) :
    (finding? catalog other minimum visit).toList.filter platform.owns =
      if other = platform then (finding? catalog other minimum visit).toList else [] := by
  cases hfinding : finding? catalog other minimum visit with
  | none => simp
  | some diagnostic => simp [owns_of_finding? catalog platform visit hfinding, List.filter_cons]

/-- What a visit gives for a platform does not depend on the oldest version of the other one. -/
theorem filter_findings (oldest : Platform → Option Minimum) :
    (findings catalog (oldest .desktop) (oldest .android) visit).filter platform.owns =
      findings catalog (platform.only oldest .desktop) (platform.only oldest .android) visit := by
  rw [findings, List.filter_append, filter_finding?, filter_finding?, findings]
  cases platform <;> simp [Platform.only, finding?_none]

theorem owns_of_mem_findings {desktop android : Option Minimum} {diagnostic : Diagnostic}
    (h : diagnostic ∈ findings catalog desktop android visit) :
    (!Platform.desktop.owns diagnostic) = Platform.android.owns diagnostic := by
  obtain ⟨platform, minimum, hfinding⟩ :
      ∃ platform minimum, finding? catalog platform minimum visit = some diagnostic :=
    (List.mem_append.mp h).elim (fun hmem => ⟨_, _, Option.mem_toList.mp hmem⟩)
      fun hmem => ⟨_, _, Option.mem_toList.mp hmem⟩
  rw [owns_of_finding? catalog .desktop visit hfinding,
    owns_of_finding? catalog .android visit hfinding]
  cases platform <;> rfl

end Findings

section Check

variable (catalog : Catalog) (tree : SupportTree) (manifest : Manifest)

/-- Under the codes of a platform a check finds what it finds when only that platform counts. -/
theorem filter_check (platform : Platform) (oldest : Platform → Option String) :
    (check catalog tree manifest (oldest .desktop) (oldest .android)).filter platform.owns =
      check catalog tree manifest (platform.only oldest .desktop)
        (platform.only oldest .android) := by
  let least : Platform → Option Minimum := fun other => Minimum.ofVersion? (oldest other)
  have honly : ∀ other,
      Minimum.ofVersion? (platform.only oldest other) = platform.only least other := by
    intro other
    simp only [Platform.only]
    split <;> rfl
  rw [check, List.filter_flatMap, check, honly, honly]
  exact List.flatMap_congr fun visit _ => filter_findings catalog platform visit least

/-- What the desktop does not own among the findings of a check is Android's. -/
theorem filter_not_owns_check (minVersion androidMinVersion : Option String) :
    (check catalog tree manifest minVersion androidMinVersion).filter
        (fun diagnostic => !Platform.desktop.owns diagnostic) =
      (check catalog tree manifest minVersion androidMinVersion).filter Platform.android.owns := by
  refine List.filter_congr fun diagnostic hdiagnostic => ?_
  obtain ⟨visit, -, hvisit⟩ := List.mem_flatMap.mp hdiagnostic
  exact owns_of_mem_findings catalog visit hvisit

/-- Under the codes of a platform a check finds what it finds for that platform alone, whatever the
oldest version of the other one is; and it is a merge of what it finds for either, with nothing lost
and nothing repeated. -/
theorem check_interleaves (minVersion androidMinVersion : Option String) :
    (check catalog tree manifest minVersion androidMinVersion).filter Platform.desktop.owns =
        check catalog tree manifest minVersion none ∧
      (check catalog tree manifest minVersion androidMinVersion).filter Platform.android.owns =
        check catalog tree manifest none androidMinVersion ∧
      Interleaves
        [check catalog tree manifest minVersion none, check catalog tree manifest none androidMinVersion]
        (check catalog tree manifest minVersion androidMinVersion) := by
  let both := check catalog tree manifest minVersion androidMinVersion
  have hdesktop : both.filter Platform.desktop.owns = check catalog tree manifest minVersion none :=
    filter_check catalog tree manifest .desktop (Platform.oldest minVersion androidMinVersion)
  have handroid : both.filter Platform.android.owns =
      check catalog tree manifest none androidMinVersion :=
    filter_check catalog tree manifest .android (Platform.oldest minVersion androidMinVersion)
  have hmerge := interleaves_filter Platform.desktop.owns both
  rw [filter_not_owns_check catalog tree manifest minVersion androidMinVersion] at hmerge
  exact ⟨hdesktop, handroid, hdesktop ▸ handroid ▸ hmerge⟩

end Check

end Compatibility
end ExtensionLint
