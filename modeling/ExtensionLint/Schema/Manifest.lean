import ExtensionLint.Schema.Basic
/-!
The schema of manifests: the types of the known keys, and the few bounds on their values.
-/

namespace ExtensionLint.Schema

def string : Schema := .type [.string]

/-- Demands a string with at least one character. -/
def nonEmptyString : Schema := .all [.type [.string], .minLength 1]

def boolean : Schema := .type [.boolean]

/-- Demands an object whose known properties are as described. -/
def record (known : List (String × Schema)) : Schema := .all [.type [.object], .properties known]

/-- Demands an object whose properties all are as described. -/
def mapOf (schema : Schema) : Schema := .all [.type [.object], .values schema]

/-- Demands an array whose items all are as described. -/
def listOf (schema : Schema) : Schema := .all [.type [.array], .items schema]

def strings : Schema := listOf string

def stringOrMap : Schema := .anyOf [string, mapOf string]

def themeIcon : Schema :=
  .all [.type [.object], .required ["dark", "light", "size"],
    .properties [("dark", string), ("light", string), ("size", .type [.integer])]]

def action : Schema :=
  record [("default_icon", stringOrMap), ("default_popup", string), ("default_title", string),
    ("theme_icons", listOf themeIcon)]

def browserSettings : Schema :=
  record
    [("gecko", record
        [("id", string), ("strict_max_version", string), ("strict_min_version", string),
          ("update_url", string)]),
      ("gecko_android", record
        [("strict_max_version", string), ("strict_min_version", string)])]

def experimentSide : Schema := record [("paths", listOf strings)]

def experiment : Schema :=
  record [("child", experimentSide), ("parent", experimentSide), ("schema", string)]

def contentScript : Schema :=
  .all [.type [.object], .required ["matches"],
    .properties [("css", strings), ("js", strings), ("matches", strings)]]

/-- The known top-level keys of a manifest, in ascending order. -/
def manifestKeys : List (String × Schema) :=
  [("action", action),
    ("applications", browserSettings),
    ("author", string),
    ("background", record
      [("page", string), ("persistent", boolean), ("scripts", strings),
        ("service_worker", string)]),
    ("browser_action", action),
    ("browser_specific_settings", browserSettings),
    ("content_scripts", listOf contentScript),
    ("content_security_policy", stringOrMap),
    ("default_locale", string),
    ("description", string),
    ("developer", record [("name", string), ("url", string)]),
    ("dictionaries", mapOf string),
    ("experiment_apis", mapOf experiment),
    ("hidden", boolean),
    ("homepage_url", string),
    ("host_permissions", strings),
    ("icons", mapOf string),
    ("install_origins", strings),
    ("langpack_id", string),
    ("manifest_version", .all [.type [.integer], .minimum 2, .maximum 3]),
    ("name", nonEmptyString),
    ("optional_permissions", strings),
    ("page_action", action),
    ("permissions", strings),
    ("short_name", string),
    ("sidebar_action", action),
    ("site_permissions", strings),
    ("theme", record
      [("colors", .type [.object]),
        ("images", record
          [("additional_backgrounds", strings), ("headerURL", string),
            ("theme_frame", string)]),
        ("properties", .type [.object])]),
    ("version", nonEmptyString)]

def manifest : Schema :=
  .all [.type [.object], .required ["manifest_version", "name", "version"],
    .properties manifestKeys]

end ExtensionLint.Schema
