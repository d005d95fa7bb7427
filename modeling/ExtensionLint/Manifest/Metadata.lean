import ExtensionLint.Manifest.Basic
import ExtensionLint.Ordered
/-!
Metadata: what a report says about the add-on itself, taken from the normalized manifest.
-/

namespace ExtensionLint

/-- A summary of an add-on. -/
structure Metadata where
  id : Option String
  manifestVersion : Nat
  name : Option String
  kind : AddonKind
  version : Option String
  minVersion : Option String
  /-- The paths of the experiment interfaces, joined with dots, ascending and each once. -/
  experimentPaths : List String
  deriving DecidableEq, Repr

namespace Metadata

/-- The path of an experiment interface, unless it names nothing. -/
def experimentPath? (segments : Json) : Option String :=
  match segments.strings with
  | [] => none
  | names => some (String.intercalate "." names)

def pathsOfSide (api : Json) (side : String) : List String :=
  ((((api.pointer? ("/" ++ side ++ "/paths")).bind Json.items?).getD []).filterMap
    experimentPath?)

/-- The paths of all experiment interfaces in order of declaration. -/
def declaredPaths (manifest : Manifest) : List String :=
  (((manifest.get? "experiment_apis").bind Json.members?).getD []).flatMap fun (_, api) =>
    pathsOfSide api "parent" ++ pathsOfSide api "child"

def ofManifest (manifest : Manifest) : Metadata :=
  { id := manifest.addonId?
    manifestVersion := manifest.version
    name := manifest.string? "name"
    kind := manifest.kind
    version := manifest.string? "version"
    minVersion := manifest.minVersion?
    experimentPaths := Ordered.ofList (declaredPaths manifest) }

def toJson (metadata : Metadata) : Json :=
  Json.ofMembers
    [("id", .ofOption metadata.id),
      ("manifestVersion", .ofNat metadata.manifestVersion),
      ("name", .ofOption metadata.name),
      ("type", .string metadata.kind.name),
      ("version", .ofOption metadata.version),
      ("firefoxMinVersion", .ofOption metadata.minVersion),
      ("experimentApiPaths", .ofStrings metadata.experimentPaths)]

end Metadata
end ExtensionLint
