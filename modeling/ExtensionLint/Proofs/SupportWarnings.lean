import ExtensionLint.Proofs.SupportWalk
import ExtensionLint.Proofs.VersionParts
import Mathlib.Data.List.Sort

/-!
The warnings about keys that are newer than the oldest admitted versions. A stop warns for a platform
when the first range of its support begins with a later major version. The check gives the warnings of
all stops, and no others: in the order of the walk, those for the desktop first at each stop.
-/

namespace ExtensionLint.Compatibility

/-- The ranges in which a platform knows a key, the most relevant one first. -/
def Platform.ranges (support : Support) : Platform → List SupportRange
  | .desktop => support.desktop
  | .android => support.android

/-- The oldest version that a manifest admits on a platform. -/
def Platform.oldest (minVersion androidMinVersion : Option String) : Platform → Option String
  | .desktop => minVersion
  | .android => androidMinVersion

/-- The codes of warnings: for a platform, about a key or about a permission. -/
inductive WarnsWith : Platform → Bool → Code → Prop where
  | desktopKey : WarnsWith .desktop false .keyFirefoxUnsupportedByMinVersion
  | desktopPermission : WarnsWith .desktop true .permissionFirefoxUnsupportedByMinVersion
  | androidKey : WarnsWith .android false .keyFirefoxAndroidUnsupportedByMinVersion
  | androidPermission : WarnsWith .android true .permissionFirefoxAndroidUnsupportedByMinVersion

/-- The warning of a stop for a platform. -/
inductive Warns (catalog : Catalog) (oldest : Platform → Option String) (stop : Stop)
    (platform : Platform) : Diagnostic → Prop where
  | newer {version least support range since major code}
      (hversion : oldest platform = some version) (hleast : Version.Major version least)
      (hsupport : stop.node.support? = some support)
      (hrange : (platform.ranges support).head? = some range) (hsince : range.since = some since)
      (hmajor : Version.Major since major) (hnewer : least < major)
      (hcode : WarnsWith platform stop.isPermission code) :
      Warns catalog oldest stop platform (catalog.render code
        [("key", stop.path), ("min_version", version), ("version_added", since)])

/-- A warning for a platform, at the place of a stop. -/
structure Warning where
  place : List Nat
  platform : Platform
  diagnostic : Diagnostic

/-- The order of warnings: by their places, and at one place those for the desktop first. -/
inductive Warning.Before (a b : Warning) : Prop where
  | place (hplace : a.place.Lex (· < ·) b.place)
  | platform (hplace : a.place = b.place) (hdesktop : a.platform = .desktop)
      (handroid : b.platform = .android)

instance : Std.Asymm Warning.Before where
  asymm a b hab hba := by
    cases hab with
    | place hab =>
        cases hba with
        | place hba => exact Std.Asymm.asymm _ _ hab hba
        | platform hplace => exact Std.Irrefl.irrefl _ (hplace ▸ hab)
    | platform hplace hdesktop handroid =>
        cases hba with
        | place hba => exact Std.Irrefl.irrefl _ (hplace ▸ hba)
        | platform _ hdesktop' => cases handroid.symm.trans hdesktop'

/-- Holds of the warnings about a manifest, in preorder. -/
structure InPreorder (catalog : Catalog) (tree : SupportTree) (properties : Json.Members)
    (oldest : Platform → Option String) (warnings : List Warning) : Prop where
  ordered : warnings.Pairwise Warning.Before
  mem_iff : ∀ place platform diagnostic, ⟨place, platform, diagnostic⟩ ∈ warnings ↔
    ∃ stop, Visited tree properties place stop ∧ Warns catalog oldest stop platform diagnostic

section Findings

variable {catalog : Catalog} {oldest : Platform → Option String} {platform : Platform}

theorem warnsWith_iff {isPermission : Bool} {code : Code} :
    WarnsWith platform isPermission code ↔ Compatibility.code platform isPermission = code := by
  constructor
  · rintro ⟨⟩ <;> rfl
  · rintro rfl
    cases platform <;> cases isPermission <;> constructor

theorem since?_eq_some {support : Support} {since : String} :
    since? platform support = some since ↔
      ∃ range, (platform.ranges support).head? = some range ∧ range.since = some since := by
  cases platform <;> exact Option.bind_eq_some_iff

theorem ofVersion?_eq_some {version : Option String} {minimum : Minimum} :
    Minimum.ofVersion? version = some minimum ↔
      version = some minimum.version ∧ Version.major? minimum.version = some minimum.major := by
  obtain ⟨text, major⟩ := minimum
  simp only [Minimum.ofVersion?, Option.bind_eq_some_iff, Option.map_eq_some_iff, Minimum.mk.injEq]
  constructor
  · rintro ⟨text, rfl, major, hmajor, rfl, rfl⟩
    exact ⟨rfl, hmajor⟩
  · rintro ⟨rfl, hmajor⟩
    exact ⟨text, rfl, major, hmajor, rfl, rfl⟩

/-- A visit gives the finding of which its stop warns. -/
theorem finding?_eq_some {stop : Stop} {diagnostic : Diagnostic} :
    finding? catalog platform (Minimum.ofVersion? (oldest platform)) stop.visit = some diagnostic ↔
      Warns catalog oldest stop platform diagnostic := by
  simp only [finding?, Option.bind_eq_bind, Option.bind_eq_some_iff, Stop.visit]
  constructor
  · rintro ⟨support, hsupport, minimum, hminimum, since, hsince, major, hmajor, hfinding⟩
    obtain ⟨hversion, hleast⟩ := ofVersion?_eq_some.mp hminimum
    obtain ⟨range, hrange, hsince⟩ := since?_eq_some.mp hsince
    split at hfinding
    · cases hfinding
    · next hnewer =>
        obtain rfl := Option.some.inj hfinding
        exact .newer hversion (Version.major?_eq_some_iff.mp hleast) hsupport hrange hsince
          (Version.major?_eq_some_iff.mp hmajor) (Nat.lt_of_not_le hnewer) (warnsWith_iff.mpr rfl)
  · rintro ⟨hversion, hleast, hsupport, hrange, hsince, hmajor, hnewer, hcode⟩
    refine ⟨_, hsupport, ⟨_, _⟩,
      ofVersion?_eq_some.mpr ⟨hversion, Version.major?_eq_some_iff.mpr hleast⟩, _,
      since?_eq_some.mpr ⟨_, hrange, hsince⟩, _, Version.major?_eq_some_iff.mpr hmajor, ?_⟩
    rw [if_neg (Nat.not_le_of_lt hnewer), warnsWith_iff.mp hcode]

end Findings

def warningsAt (catalog : Catalog) (oldest : Platform → Option String) (place : List Nat)
    (stop : Stop) : List Warning :=
  [Platform.desktop, .android].filterMap fun platform =>
    (finding? catalog platform (Minimum.ofVersion? (oldest platform)) stop.visit).map
      (Warning.mk place platform)

section WarningsAt

variable {catalog : Catalog} {oldest : Platform → Option String} {place : List Nat} {stop : Stop}

theorem mem_warningsAt {warning : Warning} :
    warning ∈ warningsAt catalog oldest place stop ↔
      warning.place = place ∧ Warns catalog oldest stop warning.platform warning.diagnostic := by
  obtain ⟨own, platform, diagnostic⟩ := warning
  have hplatform : platform ∈ [Platform.desktop, .android] := by cases platform <;> simp
  simp only [warningsAt, List.mem_filterMap, Option.map_eq_some_iff, Warning.mk.injEq,
    finding?_eq_some]
  constructor
  · rintro ⟨_, -, _, hwarns, rfl, rfl, rfl⟩
    exact ⟨rfl, hwarns⟩
  · rintro ⟨rfl, hwarns⟩
    exact ⟨platform, hplatform, diagnostic, hwarns, rfl, rfl, rfl⟩

theorem pairwise_warningsAt : (warningsAt catalog oldest place stop).Pairwise Warning.Before := by
  refine List.pairwise_filterMap.mpr (List.pairwise_pair.mpr fun first hfirst second hsecond => ?_)
  obtain ⟨_, -, rfl⟩ := Option.map_eq_some_iff.mp hfirst
  obtain ⟨_, -, rfl⟩ := Option.map_eq_some_iff.mp hsecond
  exact .platform rfl rfl rfl

theorem diagnostics_warningsAt (minVersion androidMinVersion : Option String) :
    (warningsAt catalog (Platform.oldest minVersion androidMinVersion) place stop).map
        Warning.diagnostic =
      findings catalog (Minimum.ofVersion? minVersion) (Minimum.ofVersion? androidMinVersion)
        stop.visit := by
  cases hdesktop : finding? catalog .desktop (Minimum.ofVersion? minVersion) stop.visit <;>
    cases handroid : finding? catalog .android (Minimum.ofVersion? androidMinVersion) stop.visit <;>
      simp [warningsAt, findings, Platform.oldest, hdesktop, handroid]

end WarningsAt

/-- The check gives the warnings of all stops in preorder. -/
theorem exists_inPreorder (catalog : Catalog) (tree : SupportTree) (manifest : Manifest)
    (minVersion androidMinVersion : Option String) :
    ∃ warnings, InPreorder catalog tree manifest.properties
        (Platform.oldest minVersion androidMinVersion) warnings ∧
      warnings.map Warning.diagnostic = check catalog tree manifest minVersion androidMinVersion := by
  obtain ⟨placed, hvisits, hsorted, hmem⟩ := enumerates_manifestVisits tree manifest.properties
  refine ⟨placed.flatMap fun entry =>
    warningsAt catalog (Platform.oldest minVersion androidMinVersion) entry.1 entry.2, ⟨?_, ?_⟩, ?_⟩
  · refine List.pairwise_flatMap.mpr ⟨fun entry _ => pairwise_warningsAt, ?_⟩
    refine hsorted.imp fun hbefore first hfirst second hsecond => .place ?_
    rwa [(mem_warningsAt.mp hfirst).1, (mem_warningsAt.mp hsecond).1]
  · intro place platform diagnostic
    simp only [List.mem_flatMap, Prod.exists, hmem, mem_warningsAt]
    constructor
    · rintro ⟨_, stop, hvisited, rfl, hwarns⟩
      exact ⟨stop, hvisited, hwarns⟩
    · rintro ⟨stop, hvisited, hwarns⟩
      exact ⟨place, stop, hvisited, rfl, hwarns⟩
  · rw [check, ← hvisits, List.map_flatMap, List.flatMap_map]
    simp only [diagnostics_warningsAt]

theorem InPreorder.unique {catalog : Catalog} {tree : SupportTree} {properties : Json.Members}
    {oldest : Platform → Option String} {warnings others : List Warning}
    (h : InPreorder catalog tree properties oldest warnings)
    (hothers : InPreorder catalog tree properties oldest others) : warnings = others :=
  h.ordered.eq_of_mem_iff hothers.ordered fun _ =>
    (h.mem_iff _ _ _).trans (hothers.mem_iff _ _ _).symm

/-- The findings of the check are those of which the stops in the manifest warn, in preorder. -/
theorem check_eq_iff (catalog : Catalog) (tree : SupportTree) (manifest : Manifest)
    (minVersion androidMinVersion : Option String) (diagnostics : List Diagnostic) :
    check catalog tree manifest minVersion androidMinVersion = diagnostics ↔
      ∃ warnings, InPreorder catalog tree manifest.properties
          (Platform.oldest minVersion androidMinVersion) warnings ∧
        warnings.map Warning.diagnostic = diagnostics := by
  obtain ⟨warnings, hwarnings, hdiagnostics⟩ :=
    exists_inPreorder catalog tree manifest minVersion androidMinVersion
  rw [← hdiagnostics]
  constructor
  · intro h
    exact ⟨warnings, hwarnings, h⟩
  · rintro ⟨others, hothers, rfl⟩
    rw [hwarnings.unique hothers]

/-- A key that came to the desktop after the oldest version, and in it one that came to both platforms
after theirs. -/
theorem check_eq_iff_worker :
    let support := fun desktop android : String => Support.mk [⟨some desktop⟩] [⟨some android⟩]
    let tree : SupportTree := .node none [("background",
      .node (support "78" "48") [("service_worker", .leaf (support "121.0" "121.0"))])]
    let manifest := Manifest.ofProperties
      [("background", .object [("service_worker", .string "worker.js")])]
    let warning := fun (code : Code) (key version since : String) =>
      Catalog.standard.render code
        [("key", key), ("min_version", version), ("version_added", since)]
    let warnings :=
      [warning .keyFirefoxUnsupportedByMinVersion "background" "60.0a1" "78",
        warning .keyFirefoxUnsupportedByMinVersion "background.service_worker" "60.0a1" "121.0",
        warning .keyFirefoxAndroidUnsupportedByMinVersion "background.service_worker" " 68.*" "121.0"]
    check Catalog.standard tree manifest (some "60.0a1") (some " 68.*") = warnings ∧
      ∃ placed, InPreorder Catalog.standard tree manifest.properties
          (Platform.oldest (some "60.0a1") (some " 68.*")) placed ∧
        placed.map Warning.diagnostic = warnings := by
  intro support tree manifest warning warnings
  have hcheck : check Catalog.standard tree manifest (some "60.0a1") (some " 68.*") = warnings := rfl
  exact ⟨hcheck, (check_eq_iff _ _ _ _ _ _).mp hcheck⟩

end ExtensionLint.Compatibility
