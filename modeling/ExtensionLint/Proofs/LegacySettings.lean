import ExtensionLint.Manifest.Metadata
import ExtensionLint.Package.Memory
import ExtensionLint.Proofs.Codes

/-!
The older key `applications` beside the current one. The warning that it is ignored goes by the
presence of both keys; normalizing puts the current settings in its place only if they have a desktop
section. So the warning is true of a manifest exactly if they have one; otherwise the older key
decides as before.
-/

namespace ExtensionLint

namespace Manifest

open Json (Members)

theorem addonId?_eq (manifest : Manifest) :
    manifest.addonId? = (manifest.get? "applications").bind fun settings =>
      ((settings.get? "gecko").bind fun section_ => section_.get? "id").bind Json.string? := by
  have htokens : Json.Pointer.tokens? "/applications/gecko/id" =
      some ["applications".toList, "gecko".toList, "id".toList] := by decide
  have hgecko : Json.Pointer.looseIndex? "gecko".toList = none := by decide
  have hid : Json.Pointer.looseIndex? "id".toList = none := by decide
  rw [addonId?, stringAt?, pointer?, htokens]
  simp only [Json.Pointer.walk?, Json.Pointer.step?_of_not_index hgecko,
    Json.Pointer.step?_of_not_index hid, String.ofList_toList, Option.bind_assoc, Option.bind_some]

section Settings

variable {properties : Members} {settings value : Json}

theorem promoteSettings_of_gecko
    (hsettings : properties.get? "browser_specific_settings" = some settings)
    (hgecko : (settings.get? "gecko").isSome = true) :
    promoteSettings properties = properties.insert "applications" settings := by
  simp only [promoteSettings, hsettings, hgecko, if_true]

theorem get?_current_insert
    (hsettings : properties.get? "browser_specific_settings" = some settings) :
    (properties.insert "applications" value).get? "browser_specific_settings" = some settings := by
  rw [Members.get?_insert_of_ne (by decide), hsettings]

/-- Current settings with a desktop section stand in the place of the older ones, whatever those
are. -/
theorem normalize_insert_of_gecko
    (hsettings : properties.get? "browser_specific_settings" = some settings)
    (hgecko : (settings.get? "gecko").isSome = true) :
    (ofProperties (properties.insert "applications" value)).normalize =
      (ofProperties properties).normalize := by
  have hversion : declaredVersion (.object (properties.insert "applications" value)) =
      declaredVersion (.object properties) :=
    declaredVersion_congr (Members.get?_insert_of_ne (by decide))
  have hkind : AddonKind.detect (properties.insert "applications" value) =
      AddonKind.detect properties :=
    AddonKind.detect_congr fun marker hmarker => Members.get?_insert_of_ne (by revert marker; decide)
  simp only [normalize, ofProperties, hversion, hkind,
    promoteSettings_of_gecko hsettings hgecko,
    promoteSettings_of_gecko (get?_current_insert hsettings) hgecko, Members.insert_insert]

/-- Without a desktop section the older settings are left as they are declared. -/
theorem get?_normalize_insert_of_not_gecko
    (hsettings : properties.get? "browser_specific_settings" = some settings)
    (hgecko : (settings.get? "gecko").isSome = false) :
    (ofProperties (properties.insert "applications" value)).normalize.get? "applications" =
      some value := by
  have hnone : desktopSettings? (properties.insert "applications" value) = none := by
    rw [desktopSettings?, get?_current_insert hsettings, Option.filter_some, hgecko,
      if_neg (by decide)]
  rw [get?_applications_normalize, ofProperties, hnone, Option.none_or, get?, Members.get?_insert_self]

/-- The settings of a desktop add-on with an identifier. -/
def settingsOfId (id : String) : Json := .object [("gecko", .object [("id", .string id)])]

theorem id_normalize_insert_of_not_gecko
    (hsettings : properties.get? "browser_specific_settings" = some settings)
    (hgecko : (settings.get? "gecko").isSome = false) (id : String) :
    (Metadata.ofManifest
      (ofProperties (properties.insert "applications" (settingsOfId id))).normalize).id = some id := by
  rw [Metadata.ofManifest, addonId?_eq, get?_normalize_insert_of_not_gecko hsettings hgecko]
  simp [settingsOfId, Json.get?, Json.members?, Members.get?, Json.string?]

end Settings

theorem get?_current_of_ignored {properties : Members}
    (hshape : (ofProperties properties).legacyShape? = some .ignored) :
    ∃ settings, properties.get? "browser_specific_settings" = some settings := by
  rw [legacyShape?] at hshape
  split at hshape
  · cases hshape
  · split at hshape
    · next hcurrent => exact Option.isSome_iff_exists.mp hcurrent
    · cases hshape

end Manifest

namespace RuleSetting

open Manifest (ofProperties)
open Json (Members)

variable (setting : RuleSetting) {properties : Members}

theorem legacyShape?_of_warned
    (hwarned : ∃ diagnostic, setting.checkLegacyShape (ofProperties properties) = some diagnostic ∧
      diagnostic.code = .ignoredApplicationsProperty) :
    (ofProperties properties).legacyShape? = some .ignored := by
  obtain ⟨diagnostic, hdiagnostic, hcode⟩ := hwarned
  obtain ⟨shape, hshape, rfl⟩ := Option.map_eq_some_iff.mp hdiagnostic
  cases shape with
  | ignored => exact hshape
  | only => simp at hcode

/-- The warning that `applications` is ignored is true exactly of the manifests whose current settings
have a desktop section: of those the older key changes nothing, and of every other one it decides at
least the identifier. -/
theorem ignored_applications
    (hwarned : ∃ diagnostic, setting.checkLegacyShape (ofProperties properties) = some diagnostic ∧
      diagnostic.code = .ignoredApplicationsProperty) :
    ∃ settings, properties.get? "browser_specific_settings" = some settings ∧
      ((∀ value, (ofProperties (properties.insert "applications" value)).normalize =
          (ofProperties properties).normalize) ↔ (settings.get? "gecko").isSome = true) ∧
      ((∀ value, Metadata.ofManifest (ofProperties (properties.insert "applications" value)).normalize =
          Metadata.ofManifest (ofProperties properties).normalize) ↔
        (settings.get? "gecko").isSome = true) := by
  obtain ⟨settings, hsettings⟩ :=
    Manifest.get?_current_of_ignored (setting.legacyShape?_of_warned hwarned)
  have hinert : (settings.get? "gecko").isSome = true → ∀ value,
      (ofProperties (properties.insert "applications" value)).normalize =
        (ofProperties properties).normalize :=
    fun hgecko value => Manifest.normalize_insert_of_gecko hsettings hgecko
  have hdecides : (∀ value,
      Metadata.ofManifest (ofProperties (properties.insert "applications" value)).normalize =
        Metadata.ofManifest (ofProperties properties).normalize) →
      (settings.get? "gecko").isSome = true := by
    intro hsame
    -- two identifiers cannot both be that of the manifest as it is declared
    cases hgecko : (settings.get? "gecko").isSome with
    | true => rfl
    | false =>
        have hid := fun id => Manifest.id_normalize_insert_of_not_gecko hsettings hgecko id
        simp only [hsame] at hid
        exact absurd ((hid "a").symm.trans (hid "b")) (by decide)
  refine ⟨settings, hsettings, ⟨fun hsame => hdecides fun value => ?_, hinert⟩, hdecides,
    fun hgecko value => ?_⟩
  · rw [hsame value]
  · rw [hinert hgecko value]

/-- With current settings for the desktop, every value of the older key is ignored. -/
theorem ignored_applications_desktop :
    let setting := Linter.standard.ruleSetting .standard MemoryPackage.empty.toPackage
    let properties : Members := [("applications", Manifest.settingsOfId "old@example.com"),
      ("browser_specific_settings", Manifest.settingsOfId "new@example.com")]
    (∃ diagnostic, setting.checkLegacyShape (ofProperties properties) = some diagnostic ∧
      diagnostic.code = .ignoredApplicationsProperty) ∧
    ∀ value, (ofProperties (properties.insert "applications" value)).normalize =
      (ofProperties properties).normalize := by
  intro setting properties
  have hwarned : ∃ diagnostic, setting.checkLegacyShape (ofProperties properties) = some diagnostic ∧
      diagnostic.code = .ignoredApplicationsProperty := ⟨_, rfl, setting.code_finding _ _⟩
  obtain ⟨settings, hsettings, hinert, -⟩ := setting.ignored_applications hwarned
  obtain rfl := Option.some.inj hsettings
  exact ⟨hwarned, hinert.mpr rfl⟩

/-- With current settings for another browser alone, the older key is said to be ignored, and yet the
identifier is the one that it declares. -/
theorem ignored_applications_decides :
    let setting := Linter.standard.ruleSetting .standard MemoryPackage.empty.toPackage
    let properties : Members := [("applications", Manifest.settingsOfId "old@example.com"),
      ("browser_specific_settings", .object [("safari", .object [])])]
    (∃ diagnostic, setting.checkLegacyShape (ofProperties properties) = some diagnostic ∧
      diagnostic.code = .ignoredApplicationsProperty) ∧
    (Metadata.ofManifest (ofProperties properties).normalize).id = some "old@example.com" ∧
    (Metadata.ofManifest
      (ofProperties (properties.insert "applications" (.object []))).normalize).id = none := by
  intro setting properties
  refine ⟨⟨_, rfl, setting.code_finding _ _⟩, ?_, ?_⟩
  · rw [Metadata.ofManifest, Manifest.addonId?_eq]
    rfl
  · rw [Metadata.ofManifest, Manifest.addonId?_eq]
    rfl

end RuleSetting
end ExtensionLint
