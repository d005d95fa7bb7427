import ExtensionLint.Json.Pointer
/-!
Manifests. A manifest is the top-level object of a package's description; its version and the kind
of add-on are fixed when it is read. Normalizing it once moves the current spelling of some settings
to where every rule looks for them.
-/

namespace ExtensionLint

open Json (Members)

/-- The kind of add-on that a manifest describes. -/
inductive AddonKind where
  | extension
  | staticTheme
  | languagePack
  | dictionary
  | sitePermission
  deriving DecidableEq, Repr, Inhabited

namespace AddonKind

def name : AddonKind → String
  | extension => "extension"
  | staticTheme => "static_theme"
  | languagePack => "langpack"
  | dictionary => "dictionary"
  | sitePermission => "site_permission"

/-- The keys that decide the kind, the first one that is declared winning. -/
def markers : List (String × AddonKind) :=
  [("theme", staticTheme), ("langpack_id", languagePack), ("dictionaries", dictionary),
    ("site_permissions", sitePermission)]

def detect (properties : Members) : AddonKind :=
  match markers.find? fun (key, _) => properties.has key with
  | some (_, kind) => kind
  | none => extension

end AddonKind

/-- How the older key `applications` is declared. -/
inductive LegacyShape where
  /-- Beside the current key, so that it is ignored. -/
  | ignored
  | only
  deriving DecidableEq, Repr

/-- A manifest. -/
structure Manifest where
  version : Nat
  kind : AddonKind
  properties : Members
  deriving Repr

namespace Manifest

/-- The version of the format when none is declared as an integer. -/
def standardVersion : Nat := 2

def declaredVersion (document : Json) : Nat :=
  ((document.get? "manifest_version").bind Json.nat?).getD standardVersion

def ofProperties (properties : Members) : Manifest :=
  { version := declaredVersion (.object properties)
    kind := AddonKind.detect properties
    properties := properties }

/-- What a value is called that is no object. -/
inductive NotAnObject where
  | null
  | boolean
  | number
  | string
  | array
  deriving DecidableEq, Repr

def NotAnObject.message (found : NotAnObject) : String :=
  "Manifest must be a JSON object, found " ++ match found with
    | .null => "null"
    | .boolean => "a boolean"
    | .number => "a number"
    | .string => "a string"
    | .array => "an array"

/-- The manifest of a document, which must be an object. -/
def ofJson : Json → Except NotAnObject Manifest
  | .object properties => .ok (ofProperties properties)
  | .null => .error .null
  | .bool _ => .error .boolean
  | .number _ => .error .number
  | .string _ => .error .string
  | .array _ => .error .array

def get? (manifest : Manifest) (key : String) : Option Json := manifest.properties.get? key

def string? (manifest : Manifest) (key : String) : Option String :=
  (manifest.get? key).bind Json.string?

/-- The value that a pointer leads to. It starts with a slash and goes through at least one key;
items of arrays are found by any spelling of their index. -/
def pointer? (manifest : Manifest) (pointer : String) : Option Json :=
  match Json.Pointer.tokens? pointer with
  | some (key :: tokens) =>
      (manifest.get? (String.ofList key)).bind fun value =>
        Json.Pointer.walk? Json.Pointer.looseIndex? value tokens
  | _ => none

def stringAt? (manifest : Manifest) (pointer : String) : Option String :=
  (manifest.pointer? pointer).bind Json.string?

def addonId? (manifest : Manifest) : Option String :=
  manifest.stringAt? "/applications/gecko/id"

def minVersion? (manifest : Manifest) : Option String :=
  manifest.stringAt? "/applications/gecko/strict_min_version"

def androidMinVersion? (manifest : Manifest) : Option String :=
  manifest.stringAt? "/applications/gecko_android/strict_min_version"

/-- How the older key `applications` is declared, where the format still has it. -/
def legacyShape? (manifest : Manifest) : Option LegacyShape :=
  if 3 ≤ manifest.version || !manifest.properties.has "applications" then none
  else if manifest.properties.has "browser_specific_settings" then some .ignored
  else some .only

/-- Puts the current settings in the place of the older ones, if they have a desktop section. -/
def promoteSettings (properties : Members) : Members :=
  match properties.get? "browser_specific_settings" with
  | some settings =>
      if (settings.get? "gecko").isSome then properties.insert "applications" settings
      else properties
  | none => properties

def promoteField (developer : Json) (field key : String) (properties : Members) : Members :=
  match developer.get? field with
  | some value => properties.insert key value
  | none => properties

/-- Puts the name and the address of the developer in the place of the older keys. -/
def promoteDeveloper (properties : Members) : Members :=
  match properties.get? "developer" with
  | some developer =>
      promoteField developer "url" "homepage_url"
        (promoteField developer "name" "author" properties)
  | none => properties

def normalize (manifest : Manifest) : Manifest :=
  { manifest with properties := promoteDeveloper (promoteSettings manifest.properties) }

end Manifest
end ExtensionLint
