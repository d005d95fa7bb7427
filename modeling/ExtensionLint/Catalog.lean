import ExtensionLint.Diagnostic
import ExtensionLint.Template
/-!
The catalog of messages: for every code a severity and the templates of its texts. A catalog is made
from the standard one by replacing templates, so it always has a template for every code.
-/

namespace ExtensionLint

/-- Message templates for every code. -/
structure Catalog where
  template : Code → Template

namespace Catalog

/-- The pointer to the documentation of manifest keys. -/
def manifestDocs : String := "See https://mzl.la/1ZOhoEN (MDN Docs) for more information."

def standardTemplate : Code → Template
  | .jsonInvalid =>
    ⟨.error, "\"\x7bpath\x7d\" \x7bdetail\x7d", some manifestDocs⟩
  | .manifestFieldRequired =>
    ⟨.error, "\"\x7bpath\x7d\" is a required property", some manifestDocs⟩
  | .manifestFieldInvalid =>
    ⟨.error, "\"\x7bpath\x7d\" \x7bdetail\x7d", some manifestDocs⟩
  | .manifestFieldDeprecated =>
    ⟨.warning, "\"\x7bpath\x7d\" is deprecated", some "\x7bdetail\x7d"⟩
  | .manifestThemeLwtAlias =>
    ⟨.warning, "This theme LWT alias has been removed.", none⟩
  | .manifestFieldUnsupported =>
    ⟨.warning, "\"\x7bpath\x7d\" \x7bdetail\x7d", some manifestDocs⟩
  | .manifestPermissionUnsupported =>
    ⟨.warning, "/\x7bfield\x7d: \"\x7bvalue\x7d\" \x7bdetail\x7d", some manifestDocs⟩
  | .applicationsInvalid =>
    ⟨.error, "\"applications\" is no longer allowed in Manifest Version 3 and above.",
      some "Use \"browser_specific_settings\" instead."⟩
  | .manifestFieldPrivileged =>
    ⟨.error, "\"\x7bpath\x7d\" is ignored for non-privileged add-ons.", some manifestDocs⟩
  | .manifestPermissionsPrivileged =>
    ⟨.error, "Privileged permissions requested by a non-privileged add-on: \x7bpermissions\x7d",
      some "These permissions are only available to privileged add-ons."⟩
  | .privilegedFeaturesRequired =>
    ⟨.error, "Privileged add-ons must declare privileged permissions.",
      some "This add-on is signed as privileged but does not request any privileged permission."⟩
  | .mozillaAddonsPermissionRequired =>
    ⟨.error, "The \"\x7bpermission\x7d\" permission is required for privileged add-ons.",
      some "Privileged add-ons using \x7bpermissions\x7d must also request \"\x7bpermission\x7d\"."⟩
  | .manifestBadPermission =>
    ⟨.warning, "Permissions \x7bdetail\x7d.", some manifestDocs⟩
  | .manifestBadOptionalPermission =>
    ⟨.warning, "Optional permissions \x7bdetail\x7d.", some manifestDocs⟩
  | .manifestBadHostPermission =>
    ⟨.warning, "Host permissions \x7bdetail\x7d.", some manifestDocs⟩
  | .manifestPermissions =>
    ⟨.warning, "/\x7bfield\x7d: Invalid \x7bfield\x7d \"\x7bvalue\x7d\" at \x7bindex\x7d.",
      some manifestDocs⟩
  | .manifestOptionalPermissions =>
    ⟨.warning, "/\x7bfield\x7d: Invalid \x7bfield\x7d \"\x7bvalue\x7d\" at \x7bindex\x7d.",
      some manifestDocs⟩
  | .manifestHostPermissions =>
    ⟨.warning, "/\x7bfield\x7d: Invalid \x7bfield\x7d \"\x7bvalue\x7d\" at \x7bindex\x7d.",
      some manifestDocs⟩
  | .manifestInstallOrigins =>
    ⟨.error, "/\x7bfield\x7d: Invalid \x7bfield\x7d \"\x7bvalue\x7d\" at \x7bindex\x7d.",
      some "install_origins entries must be valid origins."⟩
  | .ignoredApplicationsProperty =>
    ⟨.warning, "\"applications\" property overridden by \"browser_specific_settings\" property",
      some ("The \"applications\" property is ignored when \"browser_specific_settings\" is also" ++
      " declared.")⟩
  | .applicationsDeprecated =>
    ⟨.warning, "\"applications\" is deprecated",
      some "Use \"browser_specific_settings\" instead."⟩
  | .manifestCsp =>
    ⟨.warning, "\"\x7bproperty\x7d\" allows remote code execution",
      some ("\"\x7bproperty\x7d\" allows remote code execution in manifest.json. A custom " ++
      "content security policy can only allow secure sources.")⟩
  | .manifestCspUnsafeEval =>
    ⟨.warning, "Using \"eval\" in \"\x7bproperty\x7d\" is strongly discouraged.",
      some "The \"unsafe-eval\" source allows arbitrary code execution."⟩
  | .manifestBackgroundFileNotFound =>
    ⟨.error, "A background \x7bkind\x7d file could not be found.",
      some ("A background \x7bkind\x7d defined in the manifest could not be found at " ++
      "\"\x7bpath\x7d\".")⟩
  | .manifestContentScriptFileNotFound =>
    ⟨.error, "A content script file could not be found.",
      some "Content script defined in the manifest could not be found at \"\x7bpath\x7d\"."⟩
  | .manifestInvalidContent =>
    ⟨.error, "Forbidden content found in add-on.",
      some ("The content script match pattern \"\x7bpattern\x7d\" targets a blocked host " ++
      "\"\x7bhost\x7d\".")⟩
  | .manifestDictMissingId =>
    ⟨.error, "The dictionary needs an id.",
      some "Dictionaries must declare \"browser_specific_settings.gecko.id\"."⟩
  | .manifestEmptyDicts =>
    ⟨.error, "The \"dictionaries\" property must not be empty.", none⟩
  | .manifestMultipleDicts =>
    ⟨.error, "Only one dictionary may be declared.",
      some "Multiple dictionaries per add-on are not supported."⟩
  | .manifestDictNotFound =>
    ⟨.error, "A dictionary file defined in the manifest could not be found.",
      some "Dictionary file could not be found at \"\x7bpath\x7d\"."⟩
  | .manifestUpdateUrl =>
    ⟨.error, "\"update_url\" is not allowed.",
      some "\"applications.gecko.update_url\" is only allowed for self-hosted add-ons."⟩
  | .strictMaxVersion =>
    ⟨.notice, "\"strict_max_version\" not required.",
      some ("\"strict_max_version\" should only be set to prevent installation on versions " ++
      "known to be incompatible.")⟩
  | .restrictedHomepageUrl =>
    ⟨.error, "\"\x7bproperty\x7d\" links to a restricted site.",
      some "\"\x7bproperty\x7d\" must not point to \"\x7burl\x7d\"."⟩
  | .restrictedPermission =>
    ⟨.error, "The \"\x7bpermission\x7d\" permission requires \"strict_min_version\" to be set " ++
      "to \"\x7bmin_version\x7d\" or above.",
      some ("Set \"browser_specific_settings.gecko.strict_min_version\" to " ++
      "\"\x7bmin_version\x7d\" or above.")⟩
  | .extensionIdRequired =>
    ⟨.error, "The extension ID is required in Manifest Version 3 and above.",
      some "Declare \"browser_specific_settings.gecko.id\"."⟩
  | .hiddenNoAction =>
    ⟨.error, "Cannot use actions in hidden add-ons.",
      some "Hidden add-ons must not declare \"action\", \"browser_action\" or \"page_action\"."⟩
  | .propIdInvalid =>
    ⟨.error, "The add-on ID \"\x7bid\x7d\" is invalid.",
      some "The ID must be an email-style identifier or a GUID enclosed in braces."⟩
  | .versionFormatInvalid =>
    ⟨.error, "The version string \"\x7bversion\x7d\" is invalid.",
      some "The version must be 1 to 4 integers separated by dots, without leading zeros."⟩
  | .versionFormatDeprecated =>
    ⟨.warning, "The version string \"\x7bversion\x7d\" uses a deprecated format.",
      some "Toolkit version strings are only accepted in Manifest Version 2."⟩
  | .noMessagesFile =>
    ⟨.error, "The \"default_locale\" is missing localizations.",
      some "\"_locales/\x7blocale\x7d/messages.json\" could not be found."⟩
  | .noDefaultLocale =>
    ⟨.error, "The \"default_locale\" is missing but \"_locales\" exist.",
      some "Declare \"default_locale\" when shipping localizations."⟩
  | .noMessagesFileInLocales =>
    ⟨.error, "Some locales are missing \"messages.json\".",
      some "\"_locales/\x7blocale\x7d/messages.json\" could not be found."⟩
  | .keyFirefoxUnsupportedByMinVersion =>
    ⟨.warning, "Manifest key not supported by the specified minimum Firefox version",
      some ("\"strict_min_version\" requires Firefox \x7bmin_version\x7d, but \"\x7bkey\x7d\" " ++
      "is only supported from version \x7bversion_added\x7d.")⟩
  | .keyFirefoxAndroidUnsupportedByMinVersion =>
    ⟨.warning, "Manifest key not supported by the specified minimum Firefox for Android version",
      some ("\"strict_min_version\" requires Firefox for Android \x7bmin_version\x7d, but " ++
      "\"\x7bkey\x7d\" is only supported from version \x7bversion_added\x7d.")⟩
  | .permissionFirefoxUnsupportedByMinVersion =>
    ⟨.notice, "Permission not supported by the specified minimum Firefox version",
      some ("\"strict_min_version\" requires Firefox \x7bmin_version\x7d, but \"\x7bkey\x7d\" " ++
      "is only supported from version \x7bversion_added\x7d.")⟩
  | .permissionFirefoxAndroidUnsupportedByMinVersion =>
    ⟨.notice, "Permission not supported by the specified minimum Firefox for Android version",
      some ("\"strict_min_version\" requires Firefox for Android \x7bmin_version\x7d, but " ++
      "\"\x7bkey\x7d\" is only supported from version \x7bversion_added\x7d.")⟩
  | .manifestIconNotFound =>
    ⟨.error, "An icon defined in the manifest could not be found in the package.",
      some "Icon could not be found at \"\x7bpath\x7d\"."⟩
  | .wrongIconExtension =>
    ⟨.warning, "Unsupported image extension",
      some "Icons should be one of JPG/JPEG, WebP, GIF, PNG or SVG."⟩
  | .iconNotSquare =>
    ⟨.error, "Icons must be square.", some "Icon at \"\x7bpath\x7d\" must be square."⟩
  | .iconSizeInvalid =>
    ⟨.warning, "The size of the icon does not match the manifest.",
      some ("Expected icon at \"\x7bpath\x7d\" to be \x7bexpected\x7d pixels wide but was " ++
      "\x7bactual\x7d.")⟩
  | .corruptIconFile =>
    ⟨.warning, "Corrupt image file", some "Icon at \"\x7bpath\x7d\" is corrupt."⟩
  | .manifestThemeImageNotFound =>
    ⟨.error, "Theme image for \"\x7bproperty\x7d\" could not be found in the package",
      some "Theme image for \"\x7bproperty\x7d\" could not be found at \"\x7bpath\x7d\"."⟩
  | .manifestThemeImageWrongExt =>
    ⟨.error, "Theme image file has an unsupported file extension",
      some "Theme image file at \"\x7bpath\x7d\" has an unsupported file extension."⟩
  | .manifestThemeImageWrongMime =>
    ⟨.error, "Theme image file has an unsupported mime type",
      some "Theme image file at \"\x7bpath\x7d\" has the unsupported mime type \"\x7bmime\x7d\"."⟩
  | .manifestThemeImageMimeMismatch =>
    ⟨.warning, "Theme image file mime type does not match its file extension",
      some ("Theme image file extension at \"\x7bpath\x7d\" does not match its actual mime type " ++
      "\"\x7bmime\x7d\".")⟩
  | .manifestThemeImageCorrupted =>
    ⟨.error, "Corrupted theme image file",
      some "Theme image file at \"\x7bpath\x7d\" is corrupted."⟩

def standard : Catalog := ⟨standardTemplate⟩

def withTemplate (catalog : Catalog) (code : Code) (template : Template) : Catalog :=
  ⟨fun other => if other = code then template else catalog.template other⟩

/-- The catalog with other templates, a later one replacing an earlier one of its code. -/
def withTemplates (catalog : Catalog) (overrides : List (Code × Template)) : Catalog :=
  overrides.foldl (fun made (code, template) => made.withTemplate code template) catalog

/-- The finding of a code, its texts filled in with values. -/
def render (catalog : Catalog) (code : Code) (values : List (String × String)) : Diagnostic :=
  let template := catalog.template code
  { code := code
    severity := template.severity
    message := fill values template.message
    description := template.description.map (fill values)
    file := none }

/-- The properties whose deprecation has a code of its own, as pointers. -/
def replacements : List (String × Code) :=
  [("/theme/images/headerURL", .manifestThemeLwtAlias),
    ("/theme/colors/accentcolor", .manifestThemeLwtAlias),
    ("/theme/colors/textcolor", .manifestThemeLwtAlias)]

def replacement? (pointer : String) : Option Code := replacements.lookup pointer

@[simp] theorem render_code (catalog : Catalog) (code : Code) (values : List (String × String)) :
    (catalog.render code values).code = code := rfl

@[simp] theorem render_file (catalog : Catalog) (code : Code) (values : List (String × String)) :
    (catalog.render code values).file = none := rfl

end Catalog
end ExtensionLint
