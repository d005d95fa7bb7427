import ExtensionLint.Schema.Manifest
/-!
The schema of configurations. Unlike a manifest, a configuration must not have unknown keys. Where a
record requires one property, its properties are looked at first; where it requires two, those come
first.
-/

namespace ExtensionLint.Schema

def gateBound : Schema := .all [.type [.integer], .minimum 1]

/-- The demands on a gate, which names its subject and may have bounds. -/
def gate (subject : String) : Schema :=
  .all [.type [.object],
    .closed [("max", gateBound), ("min", gateBound), (subject, string)],
    .required [subject]]

def deprecatedProperty : Schema :=
  .all [.type [.object], .required ["pointer", "message"],
    .closed [("message", string), ("pointer", string)]]

/-- Demands an object with known properties only, each as described. -/
def closedRecord (known : List (String × Schema)) : Schema := .all [.type [.object], .closed known]

def annotations : Schema :=
  closedRecord
    [("amo_permission", string),
      ("deprecated", listOf deprecatedProperty),
      ("manifest_version_gates", listOf (gate "pointer")),
      ("permission_gates", listOf (gate "permission")),
      ("privileged_permissions", strings),
      ("privileged_properties", strings)]

def configuration : Schema :=
  closedRecord
    [("$schema", string),
      ("already_signed", boolean),
      ("annotations", annotations),
      ("blocked_content_script_hosts", listOf nonEmptyString),
      ("compat_data", nonEmptyString),
      ("features", closedRecord [("background_service_worker", boolean)]),
      ("min_version", nonEmptyString),
      ("privileged", boolean),
      ("restricted_homepage_urls", listOf nonEmptyString),
      ("restricted_permissions", mapOf nonEmptyString),
      ("self_hosted", boolean)]

end ExtensionLint.Schema
