import ExtensionLint.CommandLine.Invocation
import ExtensionLint.CommandLine.Rendering
import ExtensionLint.Configuration.File
import ExtensionLint.Package.Directory
/-!
The program over a file system. A run ends with a code: zero if all went well, one if the package is
invalid, and two if the arguments are at fault or a command fails.
-/

namespace ExtensionLint.CommandLine

variable {m : Type → Type} [Monad m]

/-- How a run ends. -/
structure Outcome where
  code : Nat
  output : String
  complaint : String
  deriving DecidableEq, Repr

namespace Outcome

def success (output : String) : Outcome := ⟨0, output, ""⟩

def failure (complaint : String) : Outcome := ⟨2, "", complaint ++ "\n"⟩

def ofReport (request : LintRequest) (report : Report) : Outcome :=
  let output := match request.format with
    | .text => report.renderText request.directory
    | .json => report.renderJson
  ⟨if report.valid then 0 else 1, output, ""⟩

end Outcome

def versionText : String := "addonlint 0.1.0\n"

def helpText : String :=
  "Usage: addonlint [OPTIONS] <COMMAND>\n\nCommands:\n  lint  Lint an extension directory\n" ++
    "  init  Initialize configuration\n\nOptions:\n" ++
    "  -c, --config <CONFIG>  Configuration file path\n" ++
    "  -v, --verbose          Enable verbose output\n" ++
    "  -h, --help             Print help\n  -V, --version          Print version\n"

def Ending.outcome : Ending → Outcome
  | version => .success versionText
  | help => .success helpText
  | usage problem => .failure problem.message

/-- The path of the configuration that applies to a directory: the one that is asked for, or one
that the directory or the working directory holds. -/
def configurationPath (fs : FileSystem m) (config : Option String) (directory : String) :
    m (Option String) := do
  match config with
  | some path => return some path
  | none => match ← Configuration.discover fs directory with
    | some path => return some path
    | none => Configuration.discover fs "."

def configurationFor (fs : FileSystem m) (config : Option String) (directory : String) :
    m (Except LintError Configuration) := do
  match ← configurationPath fs config directory with
  | none => return .ok .standard
  | some path => return (← Configuration.load fs path).mapError Configuration.Error.toLintError

/-- The configuration with what a request says beside it. A request only switches on. -/
def LintRequest.apply (request : LintRequest) (configuration : Configuration) : Configuration :=
  { configuration with
    privileged := configuration.privileged || request.privileged
    selfHosted := configuration.selfHosted || request.selfHosted
    alreadySigned := configuration.alreadySigned || request.alreadySigned
    minVersion := request.minVersion <|> configuration.minVersion }

/-- The path of the compatibility data. What a request names is seen from the working directory. -/
def LintRequest.compatibilityPath? (request : LintRequest) (configuration : Configuration) :
    Option String :=
  request.compatibilityData.map DiskPath.tidy <|> configuration.compatibilityPath?

def loadCompatibility (fs : FileSystem m) (path : Option String) :
    m (Except LintError SupportTree) := do
  match path with
  | none => return .ok .empty
  | some path => match ← fs.readText path with
    | .error _ => return .error (.compatibility .unreadable)
    | .ok text => return (SupportTree.ofText text).mapError .compatibility

def lintPackage (fs : FileSystem m) (linter : Linter) (context : LintContext)
    (directory : String) : m (Except LintError Report) := do
  match ← fs.directory? directory with
  | none => return .error (.file (directory ++ " is not a directory"))
  | some tree => return linter.lintPackage context tree.toPackage

/-- Does what a request to lint asks for. -/
def lintDirectory (fs : FileSystem m) (config : Option String) (request : LintRequest) :
    ExceptT LintError m Report := do
  let found ← ExceptT.mk (configurationFor fs config request.directory)
  let compatibility ← ExceptT.mk (loadCompatibility fs (request.compatibilityPath? found))
  let configuration := request.apply found
  ExceptT.mk (lintPackage fs (configuration.linter compatibility) configuration.context
    request.directory)

def starterText : String :=
  "\x7b\n  // Lint as a privileged add-on\n  \"privileged\": false,\n" ++
    "  // The add-on is distributed outside the store\n  \"self_hosted\": false,\n" ++
    "  // Permission name to the minimum Firefox version it requires\n" ++
    "  \"restricted_permissions\": \x7b\x7d,\n  \"blocked_content_script_hosts\": [],\n" ++
    "  \"restricted_homepage_urls\": []\n\x7d\n"

def createStarter (fs : FileSystem m) : m (Except FileError Unit) :=
  fs.create Configuration.fileName (Utf8.ofText starterText)

/-- Replaces a file by the configuration that a user starts from. A file that is gone by now needs
no removing. -/
def replaceByStarter (fs : FileSystem m) : m (Except FileError Unit) := do
  match ← fs.remove Configuration.fileName with
  | .ok _ => createStarter fs
  | .error .missing => createStarter fs
  | .error e => return .error e

/-- Writes the configuration that a user starts from. A file in its place is replaced only if that
is asked for. -/
def writeStarter (fs : FileSystem m) (force : Bool) : m (Except FileError Unit) := do
  match ← createStarter fs with
  | .ok _ => return .ok ()
  | .error .present => if force then replaceByStarter fs else return .error .present
  | .error e => return .error e

def runCommand (fs : FileSystem m) (invocation : Invocation) : m Outcome := do
  match invocation.command with
  | .lint request => match ← (lintDirectory fs invocation.config request).run with
    | .ok report => return .ofReport request report
    | .error e => return .failure e.message
  | .init force => match ← writeStarter fs force with
    | .ok _ => return .success ""
    | .error .present =>
        return .failure "Config file already exists. Use --force to overwrite."
    | .error e => return .failure e.message

def run (fs : FileSystem m) (arguments : List String) : m Outcome :=
  match Invocation.ofArguments arguments with
  | .ok invocation => runCommand fs invocation
  | .error ending => return ending.outcome

end ExtensionLint.CommandLine
