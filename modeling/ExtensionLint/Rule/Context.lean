import ExtensionLint.Catalog
import ExtensionLint.Compatibility.Check
import ExtensionLint.Package.Basic
import ExtensionLint.Policy
/-!
What rules depend on beside the manifest. The context says how the add-on is distributed and what
the operator demands; the setting of a rule adds the messages, the tables and the package.
-/

namespace ExtensionLint

/-- How an add-on is distributed and what is demanded of it. -/
structure LintContext where
  privileged : Bool
  /-- The add-on was signed before, so its identifier is known. -/
  alreadySigned : Bool
  selfHosted : Bool
  backgroundServiceWorker : Bool
  /-- The oldest desktop version, in the place of what the manifest says. -/
  minVersion : Option String
  /-- The versions that permissions require, in ascending order of the permissions. -/
  restrictedPermissions : List (String × String)
  deriving DecidableEq, Repr

def LintContext.standard : LintContext := ⟨false, false, false, false, none, []⟩

/-- What the rules of a run depend on. -/
structure RuleSetting where
  catalog : Catalog
  policy : Policy
  compatibility : SupportTree
  context : LintContext
  package : Package

namespace RuleSetting

def finding (setting : RuleSetting) (code : Code) (values : List (String × String)) :
    Diagnostic :=
  setting.catalog.render code values

def has (setting : RuleSetting) (path : String) : Bool :=
  setting.package.has (PackagePath.normalize path)

/-- The oldest desktop version, the context going before the manifest. -/
def minVersion? (setting : RuleSetting) (manifest : Manifest) : Option String :=
  setting.context.minVersion <|> manifest.minVersion?

end RuleSetting
end ExtensionLint
