import ExtensionLint.Manifest.Basic
import ExtensionLint.Proofs.Members
import Mathlib.Data.List.Find

/-!
What the version and the kind of a manifest depend on, and what normalizing it keeps. Normalizing
promotes values to three older keys; every other key, the version of the format and the kind of
add-on stay as they are declared. What is promoted is read under two keys that are none of the three,
so a normal manifest is normalized to itself.
-/

namespace ExtensionLint

theorem AddonKind.detect_congr {members others : Json.Members}
    (h : ∀ marker ∈ markers, members.get? marker.1 = others.get? marker.1) :
    detect members = detect others := by
  unfold detect
  congr 1
  exact List.find?_congr fun marker hmarker => congrArg Option.isSome (h marker hmarker)

theorem Manifest.declaredVersion_congr {members others : Json.Members}
    (h : members.get? "manifest_version" = others.get? "manifest_version") :
    declaredVersion (.object members) = declaredVersion (.object others) := by
  simp only [declaredVersion, Json.get?, Json.members?, Option.bind_some, h]

namespace Manifest

open Json (Members)

/-- The keys that normalizing may set. -/
def replacedKeys : List String := ["applications", "author", "homepage_url"]

/-- The current settings, if they have a desktop section. -/
def desktopSettings? (properties : Members) : Option Json :=
  (properties.get? "browser_specific_settings").filter fun settings =>
    (settings.get? "gecko").isSome

def developerField? (properties : Members) (field : String) : Option Json :=
  (properties.get? "developer").bind fun developer => developer.get? field

/-- The keys that normalizing may set, each with the value that is promoted to it. -/
def promotions (properties : Members) : List (String × Option Json) :=
  [("applications", desktopSettings? properties),
    ("author", developerField? properties "name"),
    ("homepage_url", developerField? properties "url")]

section Promotions

variable {properties others : Members}

theorem nodup_promotions : ((promotions properties).map Prod.fst).Nodup := by
  show replacedKeys.Nodup
  decide

theorem promotions_congr
    (hsettings : others.get? "browser_specific_settings" = properties.get? "browser_specific_settings")
    (hdeveloper : others.get? "developer" = properties.get? "developer") :
    promotions others = promotions properties := by
  simp only [promotions, desktopSettings?, developerField?, hsettings, hdeveloper]

theorem promoteSettings_eq :
    promoteSettings properties = properties.assign "applications" (desktopSettings? properties) := by
  fun_cases promoteSettings properties with
  | case1 settings hsettings hgecko =>
      rw [desktopSettings?, hsettings, Option.filter_some, if_pos hgecko, Members.assign]
  | case2 settings hsettings hgecko =>
      rw [desktopSettings?, hsettings, Option.filter_some, if_neg hgecko, Members.assign]
  | case3 hsettings => rw [desktopSettings?, hsettings, Option.filter_none, Members.assign]

theorem promoteField_eq (developer : Json) (field key : String) :
    promoteField developer field key properties = properties.assign key (developer.get? field) := rfl

theorem promoteDeveloper_eq :
    promoteDeveloper properties =
      (properties.assign "author" (developerField? properties "name")).assign "homepage_url"
        (developerField? properties "url") := by
  fun_cases promoteDeveloper properties with
  | case1 developer hdeveloper =>
      simp only [promoteField_eq, developerField?, hdeveloper, Option.bind_some]
  | case2 hdeveloper => simp only [developerField?, hdeveloper, Option.bind_none, Members.assign]

/-- Promoting the settings does not change what is promoted to the other keys. -/
theorem developerField?_promoteSettings (field : String) :
    developerField? (promoteSettings properties) field = developerField? properties field := by
  rw [promoteSettings_eq, developerField?, Members.get?_assign_of_ne (by decide), developerField?]

end Promotions

section Normalize

variable (manifest : Manifest)

theorem properties_normalize :
    manifest.normalize.properties =
      manifest.properties.assignAll (promotions manifest.properties) := by
  show promoteDeveloper (promoteSettings manifest.properties) = _
  rw [promoteDeveloper_eq, developerField?_promoteSettings, developerField?_promoteSettings,
    promoteSettings_eq]
  rfl

@[simp] theorem version_normalize : manifest.normalize.version = manifest.version := rfl

@[simp] theorem kind_normalize : manifest.normalize.kind = manifest.kind := rfl

/-- Normalizing leaves every key that it does not replace. -/
theorem get?_normalize {key : String} (hkey : key ∉ replacedKeys) :
    manifest.normalize.get? key = manifest.get? key := by
  rw [get?, properties_normalize]
  exact Members.get?_assignAll_of_not_mem hkey

theorem isSome_get?_normalize {key : String} (hkey : (manifest.get? key).isSome = true) :
    (manifest.normalize.get? key).isSome = true := by
  rw [get?, properties_normalize]
  exact Members.isSome_get?_assignAll hkey

/-- A key that normalizing may set has the value that is promoted to it, or the one that it had. -/
theorem get?_normalize_of_mem {promotion : String × Option Json}
    (hmem : promotion ∈ promotions manifest.properties) :
    manifest.normalize.get? promotion.1 = promotion.2.or (manifest.get? promotion.1) := by
  rw [get?, properties_normalize]
  exact Members.get?_assignAll_of_mem hmem nodup_promotions

theorem get?_applications_normalize :
    manifest.normalize.get? "applications" =
      (desktopSettings? manifest.properties).or (manifest.get? "applications") :=
  manifest.get?_normalize_of_mem List.mem_cons_self

/-- Nothing else is promoted in a normal manifest than in the one that it comes from. -/
theorem promotions_normalize :
    promotions manifest.normalize.properties = promotions manifest.properties :=
  promotions_congr (manifest.get?_normalize (by decide)) (manifest.get?_normalize (by decide))

theorem normalize_normalize : manifest.normalize.normalize = manifest.normalize := by
  have hproperties : manifest.normalize.normalize.properties = manifest.normalize.properties := by
    rw [properties_normalize manifest.normalize, promotions_normalize, properties_normalize,
      Members.assignAll_assignAll nodup_promotions]
  exact congrArg (fun properties => { manifest with properties }) hproperties

end Normalize

end Manifest
end ExtensionLint
