import ExtensionLint.Json.Decode
import ExtensionLint.Manifest.Basic
import ExtensionLint.Schema.Manifest
/-!
Annotations: rules about manifests that a schema cannot state. They name deprecated properties, the
manifest versions for which properties and permissions are meant, and what is reserved to privileged
add-ons. Together with the schema they decide which issues a document raises.
-/

namespace ExtensionLint

/-- A property that should no longer be used. -/
structure DeprecatedProperty where
  pointer : String
  message : String
  deriving DecidableEq, Repr

/-- The manifest versions between two bounds. -/
structure VersionRange where
  min : Option Nat
  max : Option Nat
  deriving DecidableEq, Repr

/-- The manifest versions in which a property may be used. -/
structure PropertyGate where
  pointer : String
  range : VersionRange
  deriving DecidableEq, Repr

/-- The manifest versions in which a permission may be requested. -/
structure PermissionGate where
  permission : String
  range : VersionRange
  deriving DecidableEq, Repr

/-- Rules about manifests beside the schema. -/
structure Annotations where
  deprecated : List DeprecatedProperty
  propertyGates : List PropertyGate
  permissionGates : List PermissionGate
  /-- The properties for privileged add-ons only, as pointers. -/
  privilegedProperties : List String
  privilegedPermissions : List String
  /-- The permission that a privileged add-on must request. -/
  requiredPermission : String
  deriving DecidableEq, Repr

namespace Annotations

/-- A property of themes that goes by another name now. -/
def themeAlias (pointer replacement : String) : DeprecatedProperty :=
  ⟨pointer, "Please use " ++ replacement ++
    ", this alias will be removed in a future release."⟩

/-- The permission that a privileged add-on must request, unless configured. -/
def standardPermission : String := "mozillaAddons"

def standard : Annotations :=
  { deprecated :=
      [themeAlias "/theme/images/headerURL" "theme.images.theme_frame",
        themeAlias "/theme/colors/accentcolor" "theme.colors.frame",
        themeAlias "/theme/colors/textcolor" "theme.colors.tab_background_text"]
    propertyGates :=
      [⟨"/applications", none, some 2⟩,
        ⟨"/host_permissions", some 3, none⟩,
        ⟨"/action", some 3, none⟩,
        ⟨"/browser_action", none, some 2⟩]
    permissionGates := []
    privilegedProperties := ["/hidden", "/experiment_apis"]
    privilegedPermissions :=
      ["activityLog", "mozillaAddons", "networkStatus", "normandyAddonStudy", "telemetry"]
    requiredPermission := standardPermission }

/-- The issue of a value that a version range excludes, the lower bound first. -/
def rangeIssue? (range : VersionRange) (version : Nat) (pointer : String) (value : Json) :
    Option Issue :=
  match range.min.filter (version < ·), range.max.filter (· < version) with
  | some min, _ => some (Issue.atPointer .minManifestVersion pointer (some value)
      ("must be used with manifest_version " ++ toString min ++ " or later"))
  | none, some max => some (Issue.atPointer .maxManifestVersion pointer (some value)
      ("must be used with manifest_version " ++ toString max ++ " or earlier"))
  | none, none => none

def deprecatedIssue? (document : Json) (property : DeprecatedProperty) : Option Issue :=
  (document.pointer? property.pointer).map fun value =>
    Issue.atPointer .deprecated property.pointer (some value) property.message

def propertyGateIssue? (document : Json) (gate : PropertyGate) : Option Issue :=
  (document.pointer? gate.pointer).bind
    (rangeIssue? gate.range (Manifest.declaredVersion document) gate.pointer)

/-- The lists of permissions to which permission gates apply. -/
def gatedLists : List String := ["permissions", "optional_permissions"]

def permissionGateIssues (annotations : Annotations) (version : Nat) (list : String)
    (position : Nat) (item : Json) : List Issue :=
  match item with
  | .string name =>
      (annotations.permissionGates.filter fun gate => gate.permission == name).filterMap
        fun gate => rangeIssue? gate.range version
          ("/" ++ list ++ "/" ++ toString position) item
  | _ => []

def permissionListIssues (annotations : Annotations) (document : Json) (list : String) :
    List Issue :=
  (((document.get? list).bind Json.items?).getD []).zipIdx.flatMap fun (item, position) =>
    annotations.permissionGateIssues (Manifest.declaredVersion document) list position item

/-- The privileged permissions that a document requests, in its order. -/
def listedPermissions (annotations : Annotations) (document : Json) : List String :=
  (Json.stringsOf (document.get? "permissions")).filter fun name =>
    annotations.privilegedPermissions.contains name

def privilegedPropertyIssue? (annotations : Annotations) (document : Json) (pointer : String) :
    Option Issue :=
  (document.pointer? pointer).map fun value =>
    Issue.atPointer (.privileged (annotations.listedPermissions document)) pointer (some value)
      "is a privileged property"

/-- Whether the rule about privileged permissions fails. A privileged add-on lists the required one
among its privileged permissions; any other add-on lists none. -/
def permissionsFail (annotations : Annotations) (privileged : Bool) (document : Json) : Bool :=
  let listed := annotations.listedPermissions document
  if privileged then !listed.contains annotations.requiredPermission else !listed.isEmpty

def permissionsIssue? (annotations : Annotations) (privileged : Bool) (document : Json) :
    Option Issue :=
  if annotations.permissionsFail privileged document then
    some (Issue.atPointer (.privilegedPermissions (annotations.listedPermissions document))
      "/permissions" (document.get? "permissions") "fails the privileged permissions rule")
  else none

/-- The issues that the annotations raise about a document. -/
def issues (annotations : Annotations) (privileged : Bool) (document : Json) : List Issue :=
  annotations.deprecated.filterMap (deprecatedIssue? document) ++
    annotations.propertyGates.filterMap (propertyGateIssue? document) ++
    gatedLists.flatMap (annotations.permissionListIssues document) ++
    (if privileged then []
      else annotations.privilegedProperties.filterMap
        (annotations.privilegedPropertyIssue? document)) ++
    (annotations.permissionsIssue? privileged document).toList

/-- The issues that a validator and the annotations raise about a document. -/
def validate (annotations : Annotations) (validator : Schema.Validator) (privileged : Bool)
    (document : Json) : List Issue :=
  validator.issues document ++ annotations.issues privileged document

/-- The issues that a schema and the annotations raise about a document. -/
def check (annotations : Annotations) (schema : Schema) : Bool → Json → List Issue :=
  annotations.validate schema.violations

def decodeDeprecated (value : Json) : Json.Decoded DeprecatedProperty := do
  let record ← Json.decodeRecord 2 2 value
  return ⟨← record.require 0 "pointer" Json.decodeString,
    ← record.require 1 "message" Json.decodeString⟩

def decodeRange (record : Json.Record) : Json.Decoded VersionRange := do
  let max ← record.getD 2 "max" (Json.decodeOption Json.decodeNat) none
  let min ← record.getD 1 "min" (Json.decodeOption Json.decodeNat) none
  return ⟨min, max⟩

def decodePropertyGate (value : Json) : Json.Decoded PropertyGate := do
  let record ← Json.decodeRecord 1 3 value
  let range ← decodeRange record
  return ⟨← record.require 0 "pointer" Json.decodeString, range⟩

def decodePermissionGate (value : Json) : Json.Decoded PermissionGate := do
  let record ← Json.decodeRecord 1 3 value
  let range ← decodeRange record
  return ⟨← record.require 0 "permission" Json.decodeString, range⟩

/-- Reads annotations. What is left out is as in the standard ones. -/
def decode (value : Json) : Json.Decoded Annotations := do
  let record ← Json.decodeRecord 0 6 value
  return {
    deprecated := ← record.getD 0 "deprecated" (Json.decodeList decodeDeprecated)
      standard.deprecated
    propertyGates := ← record.getD 1 "manifest_version_gates"
      (Json.decodeList decodePropertyGate) standard.propertyGates
    permissionGates := ← record.getD 2 "permission_gates"
      (Json.decodeList decodePermissionGate) standard.permissionGates
    privilegedProperties := ← record.getD 3 "privileged_properties"
      (Json.decodeList Json.decodeString) standard.privilegedProperties
    privilegedPermissions := ← record.getD 4 "privileged_permissions"
      (Json.decodeList Json.decodeString) standard.privilegedPermissions
    requiredPermission := ← record.getD 5 "amo_permission" Json.decodeString
      standard.requiredPermission }

def boundMember (name : String) (bound : Option Nat) : List (String × Json) :=
  match bound with
  | some n => [(name, .ofNat n)]
  | none => []

def rangeMembers (range : VersionRange) : List (String × Json) :=
  boundMember "max" range.max ++ boundMember "min" range.min

def toJson (annotations : Annotations) : Json :=
  Json.ofMembers
    [("deprecated", .array (annotations.deprecated.map fun property =>
        Json.ofMembers
          [("pointer", .string property.pointer), ("message", .string property.message)])),
      ("manifest_version_gates", .array (annotations.propertyGates.map fun gate =>
        Json.ofMembers (("pointer", .string gate.pointer) :: rangeMembers gate.range))),
      ("permission_gates", .array (annotations.permissionGates.map fun gate =>
        Json.ofMembers (("permission", .string gate.permission) :: rangeMembers gate.range))),
      ("privileged_properties", .ofStrings annotations.privilegedProperties),
      ("privileged_permissions", .ofStrings annotations.privilegedPermissions),
      ("amo_permission", .string annotations.requiredPermission)]

end Annotations
end ExtensionLint
