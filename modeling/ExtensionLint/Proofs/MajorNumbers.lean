import ExtensionLint.Proofs.SupportWarnings
import ExtensionLint.Proofs.VersionNumbers
import ExtensionLint.Rule.Identity

/-!
Major numbers and the order of versions. The check for support looks at major numbers only, and the
rule about restricted permissions at whole versions. The two agree: a version with a larger major
number is the later one, whatever follows the number. So the version that a warning shows is later
than the oldest version, and the oldest version would not do for a permission that requires it.
-/

namespace ExtensionLint.Compatibility

/-- The warning of a stop for a platform whose first range begins after the oldest version in the
order of versions. The oldest version does not meet the one with which the range begins. -/
inductive WarnsLater (catalog : Catalog) (oldest : Platform → Option String) (stop : Stop)
    (platform : Platform) : Diagnostic → Prop where
  | later {version support range since code}
      (hversion : oldest platform = some version) (hsupport : stop.node.support? = some support)
      (hrange : (platform.ranges support).head? = some range) (hsince : range.since = some since)
      (hlater : Version.compare version since = .lt)
      (hunmet : RuleSetting.meets (some version) since = false)
      (hcode : WarnsWith platform stop.isPermission code) :
      WarnsLater catalog oldest stop platform (catalog.render code
        [("key", stop.path), ("min_version", version), ("version_added", since)])

section Later

variable {catalog : Catalog} {oldest : Platform → Option String} {stop : Stop}
  {platform : Platform} {diagnostic : Diagnostic}

theorem not_meets_of_lt {version required : String} (h : Version.compare version required = .lt) :
    RuleSetting.meets (some version) required = false := by
  rw [RuleSetting.meets, Option.any_some, h]
  rfl

/-- The range of a warning begins later in the order of versions too. -/
theorem Warns.later (h : Warns catalog oldest stop platform diagnostic) :
    WarnsLater catalog oldest stop platform diagnostic := by
  obtain ⟨hversion, hleast, hsupport, hrange, hsince, hmajor, hnewer, hcode⟩ := h
  have hlater := Version.compare_of_major_lt (Version.major?_eq_some_iff.mpr hleast)
    (Version.major?_eq_some_iff.mpr hmajor) hnewer
  exact .later hversion hsupport hrange hsince hlater (not_meets_of_lt hlater) hcode

theorem mem_check_iff {tree : SupportTree} {manifest : Manifest}
    {minVersion androidMinVersion : Option String} :
    diagnostic ∈ check catalog tree manifest minVersion androidMinVersion ↔
      ∃ place stop platform, Visited tree manifest.properties place stop ∧
        Warns catalog (Platform.oldest minVersion androidMinVersion) stop platform diagnostic := by
  obtain ⟨warnings, hwarnings, hdiagnostics⟩ :=
    exists_inPreorder catalog tree manifest minVersion androidMinVersion
  rw [← hdiagnostics, List.mem_map]
  constructor
  · rintro ⟨⟨place, platform, diagnostic⟩, hmem, rfl⟩
    obtain ⟨stop, hwarns⟩ := (hwarnings.mem_iff place platform diagnostic).mp hmem
    exact ⟨place, stop, platform, hwarns⟩
  · rintro ⟨place, stop, platform, hwarns⟩
    exact ⟨_, (hwarnings.mem_iff place platform diagnostic).mpr ⟨stop, hwarns⟩, rfl⟩

end Later

/-- The two comparisons of versions never contradict each other: a version with a larger major number
is the later one. The findings of the check are the warnings of the stops in the manifest, and each of
these is about a range that begins after the oldest version. -/
theorem warnings_later :
    (∀ (a b : String) (m n : Nat), Version.major? a = some m → Version.major? b = some n → m < n →
      Version.compare a b = .lt) ∧
    ∀ catalog tree manifest minVersion androidMinVersion,
      let oldest := Platform.oldest minVersion androidMinVersion
      (∀ diagnostic, diagnostic ∈ check catalog tree manifest minVersion androidMinVersion ↔
        ∃ place stop platform, Visited tree manifest.properties place stop ∧
          Warns catalog oldest stop platform diagnostic) ∧
      ∀ stop platform diagnostic, Warns catalog oldest stop platform diagnostic →
        WarnsLater catalog oldest stop platform diagnostic := by
  refine ⟨fun a b m n ha hb h => Version.compare_of_major_lt ha hb h, ?_⟩
  intro catalog tree manifest minVersion androidMinVersion oldest
  exact ⟨fun diagnostic => mem_check_iff, fun stop platform diagnostic hwarns => hwarns.later⟩

/-- A minimum with a letter and more numbers, and a key that came with a later major number. -/
theorem warnings_later_background :
    let support : Support := ⟨[⟨some " 102.0pre"⟩], []⟩
    let stop : Stop := ⟨"background", .leaf support, .null, false⟩
    let tree : SupportTree := .node none [("background", .leaf support)]
    let manifest := Manifest.ofProperties [("background", .null)]
    let oldest := Platform.oldest (some "78.99.*") none
    let warning := Catalog.standard.render .keyFirefoxUnsupportedByMinVersion
      [("key", "background"), ("min_version", "78.99.*"), ("version_added", " 102.0pre")]
    Version.major? "78.99.*" = some 78 ∧ Version.major? " 102.0pre" = some 102 ∧
      Version.compare "78.99.*" " 102.0pre" = .lt ∧
      Visited tree manifest.properties [0] stop ∧
      Warns Catalog.standard oldest stop .desktop warning ∧
      warning ∈ check Catalog.standard tree manifest (some "78.99.*") none ∧
      WarnsLater Catalog.standard oldest stop .desktop warning := by
  intro support stop tree manifest oldest warning
  have hleast : Version.major? "78.99.*" = some 78 := by decide +kernel
  have hmajor : Version.major? " 102.0pre" = some 102 := by decide +kernel
  obtain ⟨horder, hwarnings⟩ := warnings_later
  obtain ⟨hmem, hlater⟩ := hwarnings Catalog.standard tree manifest (some "78.99.*") none
  have hvisited : Visited tree manifest.properties [0] stop := .key rfl rfl
  have hwarns : Warns Catalog.standard oldest stop .desktop warning :=
    .newer rfl (Version.major?_eq_some_iff.mp hleast) rfl rfl rfl
      (Version.major?_eq_some_iff.mp hmajor) (by decide) .desktopKey
  exact ⟨hleast, hmajor, horder _ _ _ _ hleast hmajor (by decide), hvisited, hwarns,
    (hmem warning).mpr ⟨_, _, _, hvisited, hwarns⟩, hlater _ _ _ hwarns⟩

end ExtensionLint.Compatibility
