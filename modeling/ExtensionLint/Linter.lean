import ExtensionLint.Asset.Check
import ExtensionLint.Image.Header
import ExtensionLint.Issue.Classification
import ExtensionLint.Json.Tolerant
import ExtensionLint.Rule.All
/-!
The linter. A run checks a document against the schema and the annotations, applies the rules to the
normalized manifest, and looks at the images; the findings of these phases follow each other in the
log. A run over text that is no manifest ends in a report with that one finding.
-/

namespace ExtensionLint

/-- The tables and checks of a linter, which do not change from run to run. -/
structure Linter where
  catalog : Catalog
  policy : Policy
  compatibility : SupportTree
  /-- The issues of a document, given whether the add-on is privileged. -/
  validate : Bool → Json → List Issue
  decoder : ImageDecoder
  /-- The permission that a privileged add-on must request. -/
  requiredPermission : String

/-- Why a run ends without a report. -/
inductive LintError where
  | configuration (reason : String)
  | file (reason : String)
  | manifest (found : Manifest.NotAnObject)
  | compatibility (cause : SupportTree.Error)
  | unreadable (cause : Package.ReadError)
  deriving DecidableEq, Repr

def SupportTree.Error.message : SupportTree.Error → String
  | unreadable => "failed to read compatibility data"
  | malformed => "invalid compatibility data"
  | notAnObject => SupportTree.notAnObjectMessage

def LintError.message : LintError → String
  | configuration reason => "Configuration error: " ++ reason
  | file reason => "File error: " ++ reason
  | manifest found => "Manifest error: " ++ found.message
  | compatibility cause => "Compatibility data error: " ++ cause.message
  | unreadable cause => "I/O error: " ++ cause.message

namespace Linter

def manifestFile : String := "manifest.json"

/-- The linter with annotations and otherwise the built-in tables, without compatibility data. -/
def ofAnnotations (annotations : Annotations) : Linter :=
  { catalog := .standard
    policy := .standard
    compatibility := .empty
    validate := annotations.check Schema.manifest
    decoder := .header
    requiredPermission := annotations.requiredPermission }

def standard : Linter := ofAnnotations .standard

def ruleSetting (linter : Linter) (context : LintContext) (package : Package) : RuleSetting :=
  ⟨linter.catalog, linter.policy, linter.compatibility, context, package⟩

def assetChecker (linter : Linter) (package : Package) : Asset.Checker :=
  ⟨package, linter.decoder, linter.catalog⟩

def classifier (linter : Linter) (context : LintContext) (manifest : Manifest) : Classifier :=
  ⟨linter.catalog, context.privileged, manifest.version, linter.requiredPermission⟩

/-- The findings about the document as it is declared. -/
def documentFindings (linter : Linter) (context : LintContext) (document : Json)
    (manifest : Manifest) : List Diagnostic :=
  (linter.classifier context manifest).classifyAll (linter.validate context.privileged document)

/-- The findings of the rules, first that about the manifest as it is declared. -/
def ruleFindings (linter : Linter) (context : LintContext) (package : Package)
    (manifest : Manifest) : List Diagnostic :=
  let setting := linter.ruleSetting context package
  (setting.checkLegacyShape manifest).toList ++ setting.run manifest.normalize

/-- Adds the findings about images to a log. Only a theme has images of its own. -/
def checkAssets (linter : Linter) (package : Package) (manifest : Manifest) (log : Log) : Log :=
  let checker := linter.assetChecker package
  let log := checker.checkIcons (Asset.icons manifest) log
  if manifest.kind = .staticTheme then
    checker.checkThemeImages (Asset.themeImages manifest) log
  else log

def log (linter : Linter) (context : LintContext) (package : Package) (document : Json)
    (manifest : Manifest) : Log :=
  let findings := linter.documentFindings context document manifest ++
    linter.ruleFindings context package manifest
  linter.checkAssets package manifest.normalize (Log.empty.extend findings)

def report (linter : Linter) (context : LintContext) (package : Package) (document : Json)
    (manifest : Manifest) : Report :=
  Report.ofLog (linter.log context package document manifest)
    (some (Metadata.ofManifest manifest.normalize))

def lint (linter : Linter) (context : LintContext) (package : Package) (document : Json) :
    Except LintError Report :=
  match Manifest.ofJson document with
  | .ok manifest => .ok (linter.report context package document manifest)
  | .error found => .error (.manifest found)

/-- The report about text that is no manifest. -/
def invalidText (linter : Linter) (detail : String) : Report :=
  Report.ofLog
    (Log.empty.add ((linter.catalog.render .jsonInvalid
      [("path", manifestFile), ("detail", detail)]).withFile manifestFile)) none

def lintText (linter : Linter) (context : LintContext) (package : Package) (text : String) :
    Except LintError Report :=
  match Json.Tolerant.read text with
  | .ok (some (.object members)) => linter.lint context package (.object members)
  | .ok (some _) => .ok (linter.invalidText "must be a JSON object")
  | .ok none => .ok (linter.invalidText "the file is empty")
  | .error message => .ok (linter.invalidText message)

def lintPackage (linter : Linter) (context : LintContext) (package : Package) :
    Except LintError Report :=
  if !package.has manifestFile then
    .error (.file (manifestFile ++ " not found in package"))
  else match package.readText manifestFile with
    | .ok text => linter.lintText context package text
    | .error cause => .error (.unreadable cause)

end Linter
end ExtensionLint
