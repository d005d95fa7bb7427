import ExtensionLint.Code
/-!
Diagnostics. A diagnostic is one finding about a package: its code, how severe it is, what to say
about it and, if it is about one file, which.
-/

namespace ExtensionLint

/-- How severe a finding is. -/
inductive Severity where
  | error
  | warning
  | notice
  deriving DecidableEq, Repr, Inhabited

def Severity.name : Severity → String
  | .error => "error"
  | .warning => "warning"
  | .notice => "notice"

def Severity.ofName? (text : String) : Option Severity :=
  [Severity.error, .warning, .notice].find? fun severity => severity.name == text

/-- One finding. -/
structure Diagnostic where
  code : Code
  severity : Severity
  message : String
  description : Option String
  /-- The file in the package that the finding is about. -/
  file : Option String
  deriving DecidableEq, Repr, Inhabited

namespace Diagnostic

def withSeverity (diagnostic : Diagnostic) (severity : Severity) : Diagnostic :=
  { diagnostic with severity := severity }

def withDescription (diagnostic : Diagnostic) (description : String) : Diagnostic :=
  { diagnostic with description := some description }

def withFile (diagnostic : Diagnostic) (file : String) : Diagnostic :=
  { diagnostic with file := some file }

def isError (diagnostic : Diagnostic) : Bool := diagnostic.severity = .error

def invalidates (diagnostic : Diagnostic) : Bool :=
  diagnostic.isError || diagnostic.code.alwaysInvalidates

/-- Whether two findings have the same code and are about the same file. -/
def sameSubject (a b : Diagnostic) : Bool := a.code = b.code && a.file = b.file

end Diagnostic
end ExtensionLint
