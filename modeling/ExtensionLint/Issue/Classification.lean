import ExtensionLint.Annotations
import ExtensionLint.Catalog
/-!
Classification: which diagnostic an issue becomes. A verdict is a code with the values for its
texts. The kind of issue gives a first verdict; an item of one of the lists of names then gets the
code of that list, unless the first verdict is about permissions already. Findings about host
permissions are dropped for manifest version 2, where those are no separate list.
-/

namespace ExtensionLint

namespace Issue

def permissionLists : List String := ["permissions", "optional_permissions", "host_permissions"]

/-- A code with the values for its texts. -/
structure Verdict where
  code : Code
  values : List (String × String)
  standby : Option String
  deriving DecidableEq, Repr

/-- A verdict without an explanation of its own. -/
def Verdict.plain (code : Code) (values : List (String × String)) : Verdict :=
  ⟨code, values, none⟩

def Verdict.render (catalog : Catalog) (verdict : Verdict) : Diagnostic :=
  let diagnostic := catalog.render verdict.code verdict.values
  match verdict.standby, diagnostic.description with
  | some text, none => diagnostic.withDescription text
  | _, _ => diagnostic

/-- The value of an issue inside a text: a string as it is, anything else as JSON. -/
def shownValue (issue : Issue) : String :=
  match issue.value with
  | some (.string s) => s
  | some value => value.text
  | none => ""

/-- The key and the index of a path that leads to an item of a top-level array. -/
def element? (issue : Issue) : Option (String × Nat) :=
  match issue.path with
  | [.key field, .index position] => some (field, position)
  | _ => none

/-- The place and the text of an issue as values for a message. -/
def placeValues (issue : Issue) : List (String × String) :=
  [("path", issue.pointer), ("detail", issue.message)]

def badPermissionCode? (field : String) : Option Code :=
  [("permissions", Code.manifestBadPermission),
    ("optional_permissions", .manifestBadOptionalPermission),
    ("host_permissions", .manifestBadHostPermission)].lookup field

def elementCode? (field : String) : Option Code :=
  [("permissions", Code.manifestPermissions),
    ("optional_permissions", .manifestOptionalPermissions),
    ("host_permissions", .manifestHostPermissions),
    ("install_origins", .manifestInstallOrigins)].lookup field

/-- The verdict on a value below a list of permissions that is no string. -/
def badPermission? (issue : Issue) : Option Verdict :=
  match issue.value with
  | some value =>
      if value.isString then none
      else (issue.topLevel?.bind badPermissionCode?).map fun code =>
        .plain code [("detail", issue.message)]
  | none => none

def unsupported (issue : Issue) : Verdict :=
  match issue.element? with
  | some (field, _) =>
      if permissionLists.contains field then
        .plain .manifestPermissionUnsupported
          [("field", field), ("value", issue.shownValue), ("detail", issue.message)]
      else .plain .manifestFieldUnsupported issue.placeValues
  | none =>
      if issue.pointer = "/applications" then .plain .applicationsInvalid []
      else .plain .manifestFieldUnsupported issue.placeValues

def deprecatedVerdict (issue : Issue) : Verdict :=
  match Catalog.replacement? issue.pointer with
  | some code => ⟨code, issue.placeValues, some issue.message⟩
  | none => .plain .manifestFieldDeprecated issue.placeValues

end Issue

/-- What classification depends on beside the issue. -/
structure Classifier where
  catalog : Catalog
  privileged : Bool
  manifestVersion : Nat
  /-- The permission that a privileged add-on must request. -/
  requiredPermission : String

namespace Classifier

open Issue (Verdict)

/-- The verdict on something reserved to privileged add-ons, given the code for all other
add-ons. -/
def privilegedVerdict (classifier : Classifier) (permissions : List String) (ordinary : Code)
    (issue : Issue) : Verdict :=
  let code :=
    if !classifier.privileged then ordinary
    else if permissions.isEmpty then .privilegedFeaturesRequired
    else .mozillaAddonsPermissionRequired
  .plain code
    [("path", issue.pointer), ("permissions", String.intercalate ", " permissions),
      ("permission", classifier.requiredPermission)]

/-- The first verdict, by the kind of issue. -/
def firstVerdict (classifier : Classifier) (issue : Issue) : Verdict :=
  match issue.kind with
  | .required => .plain .manifestFieldRequired issue.placeValues
  | .deprecated => issue.deprecatedVerdict
  | .minManifestVersion => issue.unsupported
  | .maxManifestVersion => issue.unsupported
  | .privilegedPermissions permissions =>
      if issue.topLevel? = some "permissions" then
        classifier.privilegedVerdict permissions .manifestPermissionsPrivileged issue
      else issue.badPermission?.getD (.plain .jsonInvalid issue.placeValues)
  | .type => issue.badPermission?.getD (.plain .manifestFieldInvalid issue.placeValues)
  | .privileged permissions =>
      issue.badPermission?.getD
        (classifier.privilegedVerdict permissions .manifestFieldPrivileged issue)
  | .other _ => issue.badPermission?.getD (.plain .jsonInvalid issue.placeValues)

/-- The codes that an item of a list keeps. -/
def keptCodes : List Code :=
  [.manifestBadPermission, .manifestBadOptionalPermission, .manifestBadHostPermission,
    .manifestPermissionUnsupported]

/-- The verdict on an item of a list of names, given the first verdict. -/
def refine (issue : Issue) (first : Verdict) : Verdict :=
  if keptCodes.contains first.code then first
  else match issue.element? with
    | some (field, position) => match Issue.elementCode? field with
      | some code => .plain code
          [("field", field), ("value", issue.shownValue), ("index", toString position)]
      | none => first
    | none => first

def verdict (classifier : Classifier) (issue : Issue) : Verdict :=
  refine issue (classifier.firstVerdict issue)

/-- Whether findings of a code are dropped for a manifest version. -/
def suppresses (manifestVersion : Nat) (code : Code) : Bool :=
  manifestVersion = 2 && (code = .manifestHostPermissions || code = .manifestBadHostPermission)

/-- The finding that an issue becomes, unless it is dropped. -/
def classify (classifier : Classifier) (issue : Issue) : Option Diagnostic :=
  let verdict := classifier.verdict issue
  if suppresses classifier.manifestVersion verdict.code then none
  else some (verdict.render classifier.catalog)

def classifyAll (classifier : Classifier) (issues : List Issue) : List Diagnostic :=
  issues.filterMap classifier.classify

end Classifier
end ExtensionLint
