import ExtensionLint.Proofs.Normalization
import ExtensionLint.Proofs.WrittenPointers

/-!
What normalizing promises of any object that a manifest is read from. It is done once: a normal
manifest stays as it is. It sets three older keys at most and removes none, and the kind that was
detected before is the one that would be detected after it. A pointer below the older settings finds
what it finds below the current ones, if they are an object with a desktop section, and what it found
before otherwise.
-/

namespace ExtensionLint

namespace Json.Pointer

/-- Holds of pointers: the empty text, and every text that starts with a slash. -/
def WellFormed (pointer : String) : Prop := pointer = "" ∨ ∃ rest, pointer = "/" ++ rest

theorem toList_slash_append (rest : String) : ("/" ++ rest).toList = '/' :: rest.toList := by
  rw [String.toList_append]
  rfl

/-- A name without slashes and tildes, put in front of a pointer, is its first token. -/
theorem tokens?_append {name below : String} (hslash : '/' ∉ name.toList) (htilde : '~' ∉ name.toList)
    (hbelow : WellFormed below) :
    tokens? ("/" ++ name ++ below) = (tokens? below).map fun tokens => name.toList :: tokens := by
  have hname : ∀ c ∈ name.toList, (c == '/') = false :=
    fun c hc => beq_eq_false_iff_ne.mpr fun heq => hslash (heq ▸ hc)
  rw [String.append_assoc, tokens?, toList_slash_append, String.toList_append]
  rcases hbelow with rfl | ⟨rest, rfl⟩
  · simp only [String.toList_empty, List.append_nil, Text.splitBy_eq_singleton hname,
      List.map_singleton, unescape_eq_self htilde, tokens?, Option.map_some]
  · have hsplit : Text.splitBy (· == '/') (name.toList ++ '/' :: rest.toList) =
        name.toList :: Text.splitBy (· == '/') rest.toList :=
      Text.splitBy_append_cons (by decide) hname _
    simp only [toList_slash_append, hsplit, List.map_cons, unescape_eq_self htilde, tokens?,
      Option.map_some]

end Json.Pointer

namespace Manifest

open Json (Members)
open Json.Pointer (WellFormed tokens? walk? looseIndex?)

variable {manifest : Manifest}

/-- What a pointer finds below a key depends on the value of the key. -/
theorem pointer?_append (manifest : Manifest) (key : String) {below : String}
    (hslash : '/' ∉ key.toList) (htilde : '~' ∉ key.toList) (hbelow : WellFormed below) :
    manifest.pointer? ("/" ++ key ++ below) =
      (tokens? below).bind fun tokens =>
        (manifest.get? key).bind fun value => walk? looseIndex? value tokens := by
  rw [pointer?, Json.Pointer.tokens?_append hslash htilde hbelow]
  cases tokens? below with
  | none => rfl
  | some tokens => simp only [Option.map_some, Option.bind_some, String.ofList_toList]

/-- Holds of manifests whose current settings are an object with a desktop section. -/
def HasDesktopSettings (manifest : Manifest) : Prop :=
  ∃ settings : Members, manifest.get? "browser_specific_settings" = some (.object settings) ∧
    settings.has "gecko" = true

theorem desktopSettings?_of_has (h : manifest.HasDesktopSettings) :
    desktopSettings? manifest.properties = manifest.get? "browser_specific_settings" := by
  obtain ⟨settings, hsettings, hgecko⟩ := h
  rw [get?] at hsettings ⊢
  rw [desktopSettings?, hsettings, Option.filter_some]
  exact if_pos hgecko

theorem desktopSettings?_of_not_has (h : ¬manifest.HasDesktopSettings) :
    desktopSettings? manifest.properties = none := by
  refine Option.filter_eq_none_iff.mpr fun settings hsettings hgecko => h ?_
  cases settings with
  | object members => exact ⟨members, hsettings, hgecko⟩
  | _ => cases hgecko

/-- A pointer below the older settings goes on from what is promoted to them, or from what they are. -/
theorem pointer?_normalize {below : String} (hbelow : WellFormed below) :
    manifest.normalize.pointer? ("/applications" ++ below) =
      (tokens? below).bind fun tokens =>
        ((desktopSettings? manifest.properties).or (manifest.get? "applications")).bind fun value =>
          walk? looseIndex? value tokens := by
  rw [← get?_applications_normalize]
  exact pointer?_append manifest.normalize "applications" (by decide) (by decide) hbelow

theorem pointer?_normalize_of_has (h : manifest.HasDesktopSettings) {below : String}
    (hbelow : WellFormed below) :
    manifest.normalize.pointer? ("/applications" ++ below) =
      manifest.pointer? ("/browser_specific_settings" ++ below) := by
  have hpromoted := desktopSettings?_of_has h
  obtain ⟨settings, hsettings, -⟩ := h
  rw [pointer?_normalize hbelow, hpromoted, hsettings, Option.some_or, ← hsettings]
  exact (pointer?_append manifest "browser_specific_settings" (by decide) (by decide) hbelow).symm

theorem pointer?_normalize_of_not_has (h : ¬manifest.HasDesktopSettings) {below : String}
    (hbelow : WellFormed below) :
    manifest.normalize.pointer? ("/applications" ++ below) =
      manifest.pointer? ("/applications" ++ below) := by
  rw [pointer?_normalize hbelow, desktopSettings?_of_not_has h, Option.none_or]
  exact (pointer?_append manifest "applications" (by decide) (by decide) hbelow).symm

theorem kind_normalize_ofProperties (properties : Members) :
    (ofProperties properties).normalize.kind =
      AddonKind.detect (ofProperties properties).normalize.properties := by
  refine AddonKind.detect_congr fun marker hmarker => ?_
  have hkept : ∀ marker ∈ AddonKind.markers, marker.1 ∉ replacedKeys := by decide
  exact ((ofProperties properties).get?_normalize (hkept marker hmarker)).symm

/-- Holds of a manifest and its normal form. That is normalized to itself and has all keys of the
manifest, with the same values but for the older keys. An older key has the value that is promoted to
it or the one that it had, and pointers below the older settings lead accordingly. -/
structure NormalForm (manifest normal : Manifest) : Prop where
  again : normal.normalize = normal
  frame : ∀ key, key ∉ replacedKeys → normal.get? key = manifest.get? key
  kept : ∀ key, (manifest.get? key).isSome = true → (normal.get? key).isSome = true
  version : normal.version = manifest.version
  kind : normal.kind = manifest.kind
  detected : normal.kind = AddonKind.detect normal.properties
  promoted : ∀ promotion ∈ promotions manifest.properties,
    normal.get? promotion.1 = promotion.2.or (manifest.get? promotion.1)
  current : manifest.HasDesktopSettings → ∀ below, WellFormed below →
    normal.pointer? ("/applications" ++ below) =
      manifest.pointer? ("/browser_specific_settings" ++ below)
  older : ¬manifest.HasDesktopSettings → ∀ below, WellFormed below →
    normal.pointer? ("/applications" ++ below) = manifest.pointer? ("/applications" ++ below)

/-- Every object is read as a manifest, and normalizing that manifest gives its normal form. -/
theorem normalForm_of_object (properties : Members) :
    ∃ manifest, ofJson (.object properties) = .ok manifest ∧
      manifest.NormalForm manifest.normalize := by
  refine ⟨ofProperties properties, rfl, ?_⟩
  exact {
    again := normalize_normalize _
    frame := fun _ hkey => get?_normalize _ hkey
    kept := fun _ hkey => isSome_get?_normalize _ hkey
    version := version_normalize _
    kind := kind_normalize _
    detected := kind_normalize_ofProperties properties
    promoted := fun _ hmem => get?_normalize_of_mem _ hmem
    current := fun h _ hbelow => pointer?_normalize_of_has h hbelow
    older := fun h _ hbelow => pointer?_normalize_of_not_has h hbelow }

/-- A desktop section without a value is promoted like any other, and a name in place of the developer
section promotes nothing. -/
example : (ofProperties [("applications", .object [("gecko", .object [])]),
    ("browser_specific_settings", .object [("gecko", .null)]),
    ("developer", .string "name")]).normalize.properties =
      [("applications", .object [("gecko", .null)]),
        ("browser_specific_settings", .object [("gecko", .null)]),
        ("developer", .string "name")] := by rfl

end Manifest
end ExtensionLint
