import ExtensionLint.Json.Printer
import ExtensionLint.Log
/-!
The printed form of reports. As text, each finding takes a line, with its explanation on a line
below, and a count of all findings ends the report. As JSON, the report comes with these counts.
-/

namespace ExtensionLint

/-- A finding as lines of text. A finding about no file is about the manifest. -/
def Diagnostic.lines (diagnostic : Diagnostic) : String :=
  "  " ++ diagnostic.file.getD "manifest.json" ++ " " ++ diagnostic.severity.name ++ " [" ++
    diagnostic.code.name ++ "]: " ++ diagnostic.message ++ "\n" ++
    match diagnostic.description with
    | some description => "      " ++ description ++ "\n"
    | none => ""

namespace Report

def heading (report : Report) (directory : String) : String :=
  if report.isEmpty then "" else "\n" ++ directory ++ ":\n"

def countLine (report : Report) : String :=
  (if report.valid then "Valid" else "Invalid") ++ ": " ++ toString report.errors.length ++
    " errors, " ++ toString report.warnings.length ++ " warnings, " ++
    toString report.notices.length ++ " notices\n"

def renderText (report : Report) (directory : String) : String :=
  report.heading directory ++ String.join (report.diagnostics.map Diagnostic.lines) ++ "\n" ++
    report.countLine

def countJson (report : Report) : Json :=
  Json.ofMembers
    [("errors", .ofNat report.errors.length), ("warnings", .ofNat report.warnings.length),
      ("notices", .ofNat report.notices.length)]

def renderJson (report : Report) : String :=
  (report.toObject.insert "summary" report.countJson).toJson.indentedText ++ "\n"

end Report
end ExtensionLint
