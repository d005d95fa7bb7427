import ExtensionLint.FileSystem.Path
import ExtensionLint.Linter
import ExtensionLint.Schema.Configuration
/-!
Configurations. A configuration is JSON text, which may have comments and be empty. Its schema is
checked first and only the first violation is reported; then the settings are read, what is left out
being as in the standard configuration.
-/

namespace ExtensionLint

/-- The settings of a linter. -/
structure Configuration where
  privileged : Bool
  selfHosted : Bool
  alreadySigned : Bool
  backgroundServiceWorker : Bool
  /-- The oldest desktop version, in the place of what the manifest says. -/
  minVersion : Option String
  /-- The versions that permissions require, in ascending order of the permissions. -/
  restrictedPermissions : List (String × String)
  /-- More hosts into which no content script may be put. -/
  blockedHosts : List String
  restrictedHomepages : List String
  compatibilityData : Option String
  annotations : Annotations
  baseDirectory : Option String
  deriving DecidableEq, Repr

namespace Configuration

def standard : Configuration :=
  { privileged := false
    selfHosted := false
    alreadySigned := false
    backgroundServiceWorker := false
    minVersion := none
    restrictedPermissions := []
    blockedHosts := []
    restrictedHomepages := []
    compatibilityData := none
    annotations := .standard
    baseDirectory := none }

/-- Why a text is no configuration. -/
inductive Error where
  | malformed (message : String)
  | violation (violation : Schema.Violation)
  | mismatch (mismatch : Json.Mismatch)
  | unreadable (reason : String)

def Error.message : Error → String
  | malformed message => "Invalid JSON: " ++ message
  | violation v => "Config validation failed: " ++ v.message ++ " at " ++ v.path.pointer
  | mismatch m => "Invalid config: " ++ m.message
  | unreadable reason => "Failed to read config: " ++ reason

def Error.toLintError (e : Error) : LintError := .configuration e.message

def decodeTexts : Json → Json.Decoded (List (String × String))
  | .object members => members.mapM fun (name, value) => do
      let text ← Json.decodeString value
      return (name, text)
  | _ => .error .shape

def decodeFeatures (value : Json) : Json.Decoded Bool := do
  let record ← Json.decodeRecord 0 1 value
  record.getD 0 "background_service_worker" Json.decodeBool false

def decode (value : Json) : Json.Decoded Configuration := do
  let record ← Json.decodeRecord 0 10 value
  return {
    privileged := ← record.getD 0 "privileged" Json.decodeBool false
    selfHosted := ← record.getD 1 "self_hosted" Json.decodeBool false
    alreadySigned := ← record.getD 2 "already_signed" Json.decodeBool false
    backgroundServiceWorker := ← record.getD 3 "features" decodeFeatures false
    minVersion := ← record.getD 4 "min_version" (Json.decodeOption Json.decodeString) none
    restrictedPermissions := ← record.getD 5 "restricted_permissions" decodeTexts []
    blockedHosts := ← record.getD 6 "blocked_content_script_hosts"
      (Json.decodeList Json.decodeString) []
    restrictedHomepages := ← record.getD 7 "restricted_homepage_urls"
      (Json.decodeList Json.decodeString) []
    compatibilityData := ← record.getD 8 "compat_data"
      (Json.decodeOption Json.decodeString) none
    annotations := ← record.getD 9 "annotations" Annotations.decode .standard
    baseDirectory := none }

/-- Reads the settings of a value in which a validator finds no violation. -/
def ofValidated (validator : Schema.Validator) (value : Json) : Except Error Configuration :=
  match validator value with
  | violation :: _ => .error (.violation violation)
  | [] => match decode value with
    | .ok configuration => .ok configuration
    | .error mismatch => .error (.mismatch mismatch)

/-- Checks a value against the schema and reads the settings. -/
def ofJson : Json → Except Error Configuration := ofValidated Schema.configuration.violations

/-- Reads the text of a value in which a validator finds no violation. A text without a value has no
settings. -/
def ofValidatedText (validator : Schema.Validator) (text : String) : Except Error Configuration :=
  match Json.Tolerant.read text with
  | .ok value => ofValidated validator (value.getD (.object []))
  | .error message => .error (.malformed message)

def ofText : String → Except Error Configuration :=
  ofValidatedText Schema.configuration.violations

def toJson (configuration : Configuration) : Json :=
  Json.ofMembers
    ([("privileged", .bool configuration.privileged),
      ("self_hosted", .bool configuration.selfHosted),
      ("already_signed", .bool configuration.alreadySigned),
      ("features", Json.ofMembers
        [("background_service_worker", .bool configuration.backgroundServiceWorker)]),
      ("restricted_permissions", .object (configuration.restrictedPermissions.map
        fun (permission, version) => (permission, .string version))),
      ("blocked_content_script_hosts", .ofStrings configuration.blockedHosts),
      ("restricted_homepage_urls", .ofStrings configuration.restrictedHomepages),
      ("annotations", configuration.annotations.toJson)] ++
      Json.textMember "min_version" configuration.minVersion ++
      Json.textMember "compat_data" configuration.compatibilityData)

def context (configuration : Configuration) : LintContext :=
  { privileged := configuration.privileged
    alreadySigned := configuration.alreadySigned
    selfHosted := configuration.selfHosted
    backgroundServiceWorker := configuration.backgroundServiceWorker
    minVersion := configuration.minVersion
    restrictedPermissions := configuration.restrictedPermissions }

/-- The built-in policy with the entries of a configuration. -/
def policy (configuration : Configuration) : Policy :=
  Policy.standard.extend configuration.blockedHosts configuration.restrictedHomepages

/-- The path of the compatibility data, as seen from the directory of the configuration. -/
def compatibilityPath? (configuration : Configuration) : Option String :=
  configuration.compatibilityData.map fun path =>
    match configuration.baseDirectory with
    | some base => DiskPath.join base path
    | none => path

def linter (configuration : Configuration) (compatibility : SupportTree) : Linter :=
  { Linter.ofAnnotations configuration.annotations with
    policy := configuration.policy
    compatibility := compatibility }

end Configuration
end ExtensionLint
