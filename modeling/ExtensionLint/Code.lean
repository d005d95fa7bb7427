/-!
Message codes. A code is the stable name of one kind of finding.
-/

namespace ExtensionLint

/-- The stable name of a kind of finding. -/
inductive Code where
  | jsonInvalid
  | manifestFieldRequired
  | manifestFieldInvalid
  | manifestFieldDeprecated
  | manifestThemeLwtAlias
  | manifestFieldUnsupported
  | manifestPermissionUnsupported
  | applicationsInvalid
  | manifestFieldPrivileged
  | manifestPermissionsPrivileged
  | privilegedFeaturesRequired
  | mozillaAddonsPermissionRequired
  | manifestBadPermission
  | manifestBadOptionalPermission
  | manifestBadHostPermission
  | manifestPermissions
  | manifestOptionalPermissions
  | manifestHostPermissions
  | manifestInstallOrigins
  | ignoredApplicationsProperty
  | applicationsDeprecated
  | manifestCsp
  | manifestCspUnsafeEval
  | manifestBackgroundFileNotFound
  | manifestContentScriptFileNotFound
  | manifestInvalidContent
  | manifestDictMissingId
  | manifestEmptyDicts
  | manifestMultipleDicts
  | manifestDictNotFound
  | manifestUpdateUrl
  | strictMaxVersion
  | restrictedHomepageUrl
  | restrictedPermission
  | extensionIdRequired
  | hiddenNoAction
  | propIdInvalid
  | versionFormatInvalid
  | versionFormatDeprecated
  | noMessagesFile
  | noDefaultLocale
  | noMessagesFileInLocales
  | keyFirefoxUnsupportedByMinVersion
  | keyFirefoxAndroidUnsupportedByMinVersion
  | permissionFirefoxUnsupportedByMinVersion
  | permissionFirefoxAndroidUnsupportedByMinVersion
  | manifestIconNotFound
  | wrongIconExtension
  | iconNotSquare
  | iconSizeInvalid
  | corruptIconFile
  | manifestThemeImageNotFound
  | manifestThemeImageWrongExt
  | manifestThemeImageWrongMime
  | manifestThemeImageMimeMismatch
  | manifestThemeImageCorrupted
  deriving DecidableEq, Repr, Inhabited

namespace Code

def name : Code → String
  | jsonInvalid => "JSON_INVALID"
  | manifestFieldRequired => "MANIFEST_FIELD_REQUIRED"
  | manifestFieldInvalid => "MANIFEST_FIELD_INVALID"
  | manifestFieldDeprecated => "MANIFEST_FIELD_DEPRECATED"
  | manifestThemeLwtAlias => "MANIFEST_THEME_LWT_ALIAS"
  | manifestFieldUnsupported => "MANIFEST_FIELD_UNSUPPORTED"
  | manifestPermissionUnsupported => "MANIFEST_PERMISSION_UNSUPPORTED"
  | applicationsInvalid => "APPLICATIONS_INVALID"
  | manifestFieldPrivileged => "MANIFEST_FIELD_PRIVILEGED"
  | manifestPermissionsPrivileged => "MANIFEST_PERMISSIONS_PRIVILEGED"
  | privilegedFeaturesRequired => "PRIVILEGED_FEATURES_REQUIRED"
  | mozillaAddonsPermissionRequired => "MOZILLA_ADDONS_PERMISSION_REQUIRED"
  | manifestBadPermission => "MANIFEST_BAD_PERMISSION"
  | manifestBadOptionalPermission => "MANIFEST_BAD_OPTIONAL_PERMISSION"
  | manifestBadHostPermission => "MANIFEST_BAD_HOST_PERMISSION"
  | manifestPermissions => "MANIFEST_PERMISSIONS"
  | manifestOptionalPermissions => "MANIFEST_OPTIONAL_PERMISSIONS"
  | manifestHostPermissions => "MANIFEST_HOST_PERMISSIONS"
  | manifestInstallOrigins => "MANIFEST_INSTALL_ORIGINS"
  | ignoredApplicationsProperty => "IGNORED_APPLICATIONS_PROPERTY"
  | applicationsDeprecated => "APPLICATIONS_DEPRECATED"
  | manifestCsp => "MANIFEST_CSP"
  | manifestCspUnsafeEval => "MANIFEST_CSP_UNSAFE_EVAL"
  | manifestBackgroundFileNotFound => "MANIFEST_BACKGROUND_FILE_NOT_FOUND"
  | manifestContentScriptFileNotFound => "MANIFEST_CONTENT_SCRIPT_FILE_NOT_FOUND"
  | manifestInvalidContent => "MANIFEST_INVALID_CONTENT"
  | manifestDictMissingId => "MANIFEST_DICT_MISSING_ID"
  | manifestEmptyDicts => "MANIFEST_EMPTY_DICTS"
  | manifestMultipleDicts => "MANIFEST_MULTIPLE_DICTS"
  | manifestDictNotFound => "MANIFEST_DICT_NOT_FOUND"
  | manifestUpdateUrl => "MANIFEST_UPDATE_URL"
  | strictMaxVersion => "STRICT_MAX_VERSION"
  | restrictedHomepageUrl => "RESTRICTED_HOMEPAGE_URL"
  | restrictedPermission => "RESTRICTED_PERMISSION"
  | extensionIdRequired => "EXTENSION_ID_REQUIRED"
  | hiddenNoAction => "HIDDEN_NO_ACTION"
  | propIdInvalid => "PROP_ID_INVALID"
  | versionFormatInvalid => "VERSION_FORMAT_INVALID"
  | versionFormatDeprecated => "VERSION_FORMAT_DEPRECATED"
  | noMessagesFile => "NO_MESSAGES_FILE"
  | noDefaultLocale => "NO_DEFAULT_LOCALE"
  | noMessagesFileInLocales => "NO_MESSAGES_FILE_IN_LOCALES"
  | keyFirefoxUnsupportedByMinVersion => "KEY_FIREFOX_UNSUPPORTED_BY_MIN_VERSION"
  | keyFirefoxAndroidUnsupportedByMinVersion => "KEY_FIREFOX_ANDROID_UNSUPPORTED_BY_MIN_VERSION"
  | permissionFirefoxUnsupportedByMinVersion => "PERMISSION_FIREFOX_UNSUPPORTED_BY_MIN_VERSION"
  | permissionFirefoxAndroidUnsupportedByMinVersion =>
      "PERMISSION_FIREFOX_ANDROID_UNSUPPORTED_BY_MIN_VERSION"
  | manifestIconNotFound => "MANIFEST_ICON_NOT_FOUND"
  | wrongIconExtension => "WRONG_ICON_EXTENSION"
  | iconNotSquare => "ICON_NOT_SQUARE"
  | iconSizeInvalid => "ICON_SIZE_INVALID"
  | corruptIconFile => "CORRUPT_ICON_FILE"
  | manifestThemeImageNotFound => "MANIFEST_THEME_IMAGE_NOT_FOUND"
  | manifestThemeImageWrongExt => "MANIFEST_THEME_IMAGE_WRONG_EXT"
  | manifestThemeImageWrongMime => "MANIFEST_THEME_IMAGE_WRONG_MIME"
  | manifestThemeImageMimeMismatch => "MANIFEST_THEME_IMAGE_MIME_MISMATCH"
  | manifestThemeImageCorrupted => "MANIFEST_THEME_IMAGE_CORRUPTED"

def all : List Code := [
  .jsonInvalid, .manifestFieldRequired, .manifestFieldInvalid, .manifestFieldDeprecated,
  .manifestThemeLwtAlias, .manifestFieldUnsupported, .manifestPermissionUnsupported,
  .applicationsInvalid, .manifestFieldPrivileged, .manifestPermissionsPrivileged,
  .privilegedFeaturesRequired, .mozillaAddonsPermissionRequired, .manifestBadPermission,
  .manifestBadOptionalPermission, .manifestBadHostPermission, .manifestPermissions,
  .manifestOptionalPermissions, .manifestHostPermissions, .manifestInstallOrigins,
  .ignoredApplicationsProperty, .applicationsDeprecated, .manifestCsp, .manifestCspUnsafeEval,
  .manifestBackgroundFileNotFound, .manifestContentScriptFileNotFound, .manifestInvalidContent,
  .manifestDictMissingId, .manifestEmptyDicts, .manifestMultipleDicts, .manifestDictNotFound,
  .manifestUpdateUrl, .strictMaxVersion, .restrictedHomepageUrl, .restrictedPermission,
  .extensionIdRequired, .hiddenNoAction, .propIdInvalid, .versionFormatInvalid,
  .versionFormatDeprecated, .noMessagesFile, .noDefaultLocale, .noMessagesFileInLocales,
  .keyFirefoxUnsupportedByMinVersion, .keyFirefoxAndroidUnsupportedByMinVersion,
  .permissionFirefoxUnsupportedByMinVersion, .permissionFirefoxAndroidUnsupportedByMinVersion,
  .manifestIconNotFound, .wrongIconExtension, .iconNotSquare, .iconSizeInvalid, .corruptIconFile,
  .manifestThemeImageNotFound, .manifestThemeImageWrongExt, .manifestThemeImageWrongMime,
  .manifestThemeImageMimeMismatch, .manifestThemeImageCorrupted]

def ofName? (text : String) : Option Code := all.find? fun code => code.name == text

/-- Whether a finding of this code makes a package invalid at any severity. -/
def alwaysInvalidates (code : Code) : Bool := code = .manifestBadPermission

theorem mem_all (code : Code) : code ∈ all := by cases code <;> simp [all]

end Code
end ExtensionLint
