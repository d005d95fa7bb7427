import ExtensionLint.Rule.Files
import ExtensionLint.Rule.Identity
import ExtensionLint.Rule.Locales
import ExtensionLint.SecurityPolicy
/-!
All rules. They run over the normalized manifest one after the other, and none stops the others; the
rule about the older key `applications` alone looks at the manifest as it is declared.
-/

namespace ExtensionLint.RuleSetting

/-- The property that holds the content security policy. -/
def policyProperty : String := "content_security_policy"

/-- The findings about the content security policies: one text, or one for each kind of page. -/
def checkSecurityPolicy (setting : RuleSetting) (manifest : Manifest) : List Diagnostic :=
  match manifest.get? policyProperty with
  | some (.string policy) => SecurityPolicy.check setting.catalog policy policyProperty
  | some (.object policies) => policies.flatMap fun (page, policy) => match policy with
    | .string policy =>
        SecurityPolicy.check setting.catalog policy (policyProperty ++ "." ++ page)
    | _ => []
  | _ => []

/-- The findings about keys and permissions that are too new. Without an oldest version of its own
Android has that of the desktop. -/
def checkCompatibility (setting : RuleSetting) (manifest : Manifest) : List Diagnostic :=
  if setting.compatibility.isEmpty then []
  else
    let minVersion := setting.minVersion? manifest
    Compatibility.check setting.catalog setting.compatibility manifest minVersion
      (manifest.androidMinVersion? <|> minVersion)

def checkLegacyShape (setting : RuleSetting) (manifest : Manifest) : Option Diagnostic :=
  manifest.legacyShape?.map fun
    | .ignored => setting.finding .ignoredApplicationsProperty []
    | .only => setting.finding .applicationsDeprecated []

/-- The rules over the normalized manifest, in order. -/
def rules : List (RuleSetting → Manifest → List Diagnostic) :=
  [checkSecurityPolicy, checkBackground, checkContentScripts, checkDictionaries, checkUpdateUrl,
    checkMaxVersion, checkHomepage, checkRestrictedPermissions, checkIdPresent, checkHidden,
    checkIdFormat, checkVersionFormat, checkLocales, checkCompatibility]

def run (setting : RuleSetting) (manifest : Manifest) : List Diagnostic :=
  rules.flatMap fun rule => rule setting manifest

end ExtensionLint.RuleSetting
