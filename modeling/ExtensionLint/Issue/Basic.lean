import ExtensionLint.Json.Path
/-!
Issues. An issue is what the check of a document against its schema and annotations finds, before it
is known how that is to be reported: the kind of rule, the path, the value there and a text.
-/

namespace ExtensionLint

namespace Issue

/-- The kind of rule that raises an issue. -/
inductive Kind where
  | required
  | deprecated
  /-- The manifest version is too old for the value. -/
  | minManifestVersion
  /-- The manifest version is too new for the value. -/
  | maxManifestVersion
  | privileged (permissions : List String)
  /-- The rule about privileged permissions fails; those that are listed come with it. -/
  | privilegedPermissions (permissions : List String)
  | type
  | other (keyword : String)
  deriving DecidableEq, Repr

def Kind.name : Kind → String
  | required => "required"
  | deprecated => "deprecated"
  | minManifestVersion => "min_manifest_version"
  | maxManifestVersion => "max_manifest_version"
  | privileged _ => "privileged"
  | privilegedPermissions _ => "privileged_permissions"
  | type => "type"
  | other _ => "other"

end Issue

/-- One finding of the check against the schema and its annotations. -/
structure Issue where
  kind : Issue.Kind
  path : Json.Path
  value : Option Json
  message : String
  deriving Repr

namespace Issue

def atPointer (kind : Kind) (pointer : String) (value : Option Json) (message : String) : Issue :=
  ⟨kind, Json.Path.ofPointer pointer, value, message⟩

def pointer (issue : Issue) : String := issue.path.pointer

def topLevel? (issue : Issue) : Option String := issue.path.topLevel?

end Issue
end ExtensionLint
