import ExtensionLint.Rule.Context
/-!
Rules about the identity of an add-on, its distribution and its versions.
-/

namespace ExtensionLint

namespace AddonId

/-- The lengths of the groups of digits in a GUID. -/
def groupLengths : List Nat := [8, 4, 4, 4, 12]

def isGuid (id : List Char) : Bool :=
  match (Text.stripFront? ['{'] id).bind (Text.stripBack? ['}']) with
  | none => false
  | some inner =>
      let groups := Text.splitBy (· == '-') inner
      groups.map List.length = groupLengths && groups.all fun group => group.all Text.isHexDigit

/-- Whether a character may stand on either side of the sign in an identifier. -/
def isNameChar (c : Char) : Bool := c.isAlphanum || c = '.' || c = '_' || c = '-'

/-- Whether a text has the form of an address of mail, with a domain. -/
def isEmailLike (id : List Char) : Bool :=
  match Text.splitFirst '@' id with
  | none => false
  | some (name, domain) => !domain.isEmpty && name.all isNameChar && domain.all isNameChar

def isValid (id : String) : Bool := isGuid id.toList || isEmailLike id.toList

end AddonId

namespace RuleSetting

def actionKeys : List String := ["action", "browser_action", "page_action"]

def restrictedLists : List String := ["permissions", "optional_permissions"]

/-- The finding about an update address, which only a self-hosted add-on may have. -/
def checkUpdateUrl (setting : RuleSetting) (manifest : Manifest) : List Diagnostic :=
  if setting.context.selfHosted || (manifest.pointer? "/applications/gecko/update_url").isNone then
    []
  else
    let finding := setting.finding .manifestUpdateUrl []
    [if setting.context.privileged then finding.withSeverity .warning else finding]

/-- The finding about a newest admitted version, which is an error for a dictionary. -/
def checkMaxVersion (setting : RuleSetting) (manifest : Manifest) : List Diagnostic :=
  if setting.context.selfHosted ||
      (manifest.pointer? "/applications/gecko/strict_max_version").isNone then []
  else
    let finding := setting.finding .strictMaxVersion []
    [if manifest.kind = .dictionary then finding.withSeverity .error else finding]

def checkHomepage (setting : RuleSetting) (manifest : Manifest) : List Diagnostic :=
  match (manifest.string? "homepage_url").bind setting.policy.restrictedHomepage? with
  | some restricted =>
      [setting.finding .restrictedHomepageUrl [("property", "homepage_url"), ("url", restricted)]]
  | none => []

/-- Whether an oldest admitted version meets what a permission requires. -/
def meets (declared : Option String) (required : String) : Bool :=
  declared.any fun version => Version.compare version required != .lt

/-- The finding about a permission that requires a newer version. -/
def restrictedPermission (setting : RuleSetting) (declared : Option String)
    (permission : String) : List Diagnostic :=
  match setting.context.restrictedPermissions.lookup permission with
  | none => []
  | some required =>
      if meets declared required then []
      else [setting.finding .restrictedPermission
        [("permission", permission), ("min_version", required)]]

def checkRestrictedPermissions (setting : RuleSetting) (manifest : Manifest) :
    List Diagnostic :=
  (restrictedLists.flatMap fun list => Json.stringsOf (manifest.get? list)).flatMap
    (setting.restrictedPermission (setting.minVersion? manifest))

/-- The finding about a missing identifier, which is needed from manifest version 3 on. -/
def checkIdPresent (setting : RuleSetting) (manifest : Manifest) : List Diagnostic :=
  if 3 ≤ manifest.version && manifest.addonId?.isNone && !setting.context.alreadySigned then
    [setting.finding .extensionIdRequired []]
  else []

def isHidden (manifest : Manifest) : Bool :=
  (manifest.get? "hidden").bind Json.bool? = some true

/-- The finding about a hidden privileged add-on with an action. -/
def checkHidden (setting : RuleSetting) (manifest : Manifest) : List Diagnostic :=
  if setting.context.privileged && isHidden manifest &&
      actionKeys.any manifest.properties.has then
    [setting.finding .hiddenNoAction []]
  else []

def checkIdFormat (setting : RuleSetting) (manifest : Manifest) : List Diagnostic :=
  match manifest.addonId? with
  | some id => if AddonId.isValid id then [] else [setting.finding .propIdInvalid [("id", id)]]
  | none => []

/-- The finding about the form of the version. The older form is tolerated before manifest
version 3. -/
def checkVersionFormat (setting : RuleSetting) (manifest : Manifest) : List Diagnostic :=
  match manifest.string? "version" with
  | none => []
  | some version =>
      if Version.isValid version then []
      else
        let code : Code :=
          if manifest.version < 3 && Version.isToolkit version then .versionFormatDeprecated
          else .versionFormatInvalid
        [setting.finding code [("version", version)]]

end RuleSetting
end ExtensionLint
