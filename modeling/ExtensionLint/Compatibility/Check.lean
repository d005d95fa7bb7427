import ExtensionLint.Catalog
import ExtensionLint.Compatibility.Support
import ExtensionLint.Manifest.Basic
import ExtensionLint.Version
/-!
The check of a manifest against compatibility data. The manifest and the tree of the data are walked
in step: through the members of objects, through the members of the objects in an array, and through
the names in a list of permissions. Each node met on the way is a visit, and a visit gives a finding
for each platform on which the key came later than the oldest admitted version.
-/

namespace ExtensionLint.Compatibility

/-- A platform. -/
inductive Platform where
  | desktop
  | android
  deriving DecidableEq, Repr

/-- A node of the data that the manifest makes use of. -/
structure Visit where
  /-- The keys on the way, as they are shown. -/
  path : String
  support : Option Support
  isPermission : Bool
  deriving DecidableEq, Repr

def permissionKeys : List String := ["permissions", "optional_permissions"]

mutual

/-- The visits from a value at a node of the data. -/
def visits (listsPermissions isPermission : Bool) (path : String) (tree : SupportTree) :
    Json → List Visit
  | .object members =>
      ⟨path, tree.support?, isPermission⟩ :: memberVisits path tree members
  | .array items =>
      ⟨path, tree.support?, isPermission⟩ :: itemVisits listsPermissions path tree items
  | _ => [⟨path, tree.support?, isPermission⟩]

def memberVisits (path : String) (tree : SupportTree) : List (String × Json) → List Visit
  | [] => []
  | (name, value) :: rest =>
      (match tree.child? name with
        | some child => visits false false (path ++ "." ++ name) child value
        | none => []) ++ memberVisits path tree rest

def itemVisits (listsPermissions : Bool) (path : String) (tree : SupportTree) :
    List Json → List Visit
  | [] => []
  | .string name :: rest =>
      (match listsPermissions, tree.child? name with
        | true, some child => [⟨path ++ ":" ++ name, child.support?, true⟩]
        | _, _ => []) ++ itemVisits listsPermissions path tree rest
  | .object members :: rest =>
      memberVisits path tree members ++ itemVisits listsPermissions path tree rest
  | _ :: rest => itemVisits listsPermissions path tree rest

end

def manifestVisits (tree : SupportTree) (properties : Json.Members) : List Visit :=
  properties.flatMap fun (key, value) =>
    match tree.child? key with
    | some child => visits (permissionKeys.contains key) false key child value
    | none => []

/-- The oldest version that a manifest admits, with its major number. -/
structure Minimum where
  version : String
  major : Nat
  deriving DecidableEq, Repr

/-- The oldest version of a text, if it has a major number. -/
def Minimum.ofVersion? (version : Option String) : Option Minimum :=
  version.bind fun version => (Version.major? version).map fun major => ⟨version, major⟩

def code : Platform → Bool → Code
  | .desktop, false => .keyFirefoxUnsupportedByMinVersion
  | .desktop, true => .permissionFirefoxUnsupportedByMinVersion
  | .android, false => .keyFirefoxAndroidUnsupportedByMinVersion
  | .android, true => .permissionFirefoxAndroidUnsupportedByMinVersion

/-- The version with which a platform came to know a key. -/
def since? (platform : Platform) (support : Support) : Option String :=
  match platform with
  | .desktop => Support.firstSince support.desktop
  | .android => Support.firstSince support.android

/-- The finding that a visit gives for a platform. -/
def finding? (catalog : Catalog) (platform : Platform) (minimum : Option Minimum)
    (visit : Visit) : Option Diagnostic := do
  let support ← visit.support
  let minimum ← minimum
  let since ← since? platform support
  let major ← Version.major? since
  if major ≤ minimum.major then none
  else some (catalog.render (code platform visit.isPermission)
    [("key", visit.path), ("min_version", minimum.version), ("version_added", since)])

theorem code_of_finding? {catalog : Catalog} {platform : Platform} {minimum : Option Minimum}
    {visit : Visit} {diagnostic : Diagnostic}
    (h : finding? catalog platform minimum visit = some diagnostic) :
    diagnostic.code = code platform visit.isPermission := by
  simp only [finding?, Option.bind_eq_bind, Option.bind_eq_some_iff] at h
  obtain ⟨support, -, least, -, since, -, major, -, hfound⟩ := h
  split at hfound
  · cases hfound
  · obtain rfl := Option.some.inj hfound
    rfl

/-- The findings that a visit gives, those for the desktop first. -/
def findings (catalog : Catalog) (desktop android : Option Minimum) (visit : Visit) :
    List Diagnostic :=
  (finding? catalog .desktop desktop visit).toList ++
    (finding? catalog .android android visit).toList

/-- The findings about the keys and permissions that are newer than the oldest admitted
versions. -/
def check (catalog : Catalog) (tree : SupportTree) (manifest : Manifest)
    (minVersion androidMinVersion : Option String) : List Diagnostic :=
  (manifestVisits tree manifest.properties).flatMap
    (findings catalog (Minimum.ofVersion? minVersion) (Minimum.ofVersion? androidMinVersion))

end ExtensionLint.Compatibility
