import ExtensionLint.Diagnostic
import ExtensionLint.Json.Decode
import ExtensionLint.Manifest.Metadata
/-!
The log of a run and the report it ends in. A log only ever grows at its end. The report splits the
log by severity, each part in the order of the log, and calls the package valid when nothing in the
log invalidates it.
-/

namespace ExtensionLint

/-- The findings of a run, in the order in which they were made. -/
structure Log where
  entries : List Diagnostic
  deriving DecidableEq, Repr

namespace Log

def empty : Log := ⟨[]⟩

def add (log : Log) (diagnostic : Diagnostic) : Log := ⟨log.entries ++ [diagnostic]⟩

def extend (log : Log) (diagnostics : List Diagnostic) : Log := ⟨log.entries ++ diagnostics⟩

def has (log : Log) (diagnostic : Diagnostic) : Bool := log.entries.any diagnostic.sameSubject

/-- Appends a finding unless there is one with its code and file. -/
def addNew (log : Log) (diagnostic : Diagnostic) : Log :=
  if log.has diagnostic then log else log.add diagnostic

/-- Appends a finding unless there is one with its code and file, and tells whether it is new. -/
def offer (log : Log) (diagnostic : Diagnostic) : Bool × Log :=
  if log.has diagnostic then (false, log) else (true, log.add diagnostic)

/-- Appends the findings whose code and file are new, one after the other. -/
def addAllNew (log : Log) (diagnostics : List Diagnostic) : Log := diagnostics.foldl addNew log

def size (log : Log) : Nat := log.entries.length

def isEmpty (log : Log) : Bool := log.entries.isEmpty

def isValid (log : Log) : Bool := log.entries.all fun diagnostic => !diagnostic.invalidates

def ofSeverity (log : Log) (severity : Severity) : List Diagnostic :=
  log.entries.filter fun diagnostic => diagnostic.severity = severity

@[simp] theorem entries_add (log : Log) (diagnostic : Diagnostic) :
    (log.add diagnostic).entries = log.entries ++ [diagnostic] := rfl

@[simp] theorem entries_extend (log : Log) (diagnostics : List Diagnostic) :
    (log.extend diagnostics).entries = log.entries ++ diagnostics := rfl

theorem addNew_of_has {log : Log} {diagnostic : Diagnostic} (h : log.has diagnostic = true) :
    log.addNew diagnostic = log := by simp [addNew, h]

theorem addNew_of_not_has {log : Log} {diagnostic : Diagnostic}
    (h : log.has diagnostic = false) : log.addNew diagnostic = log.add diagnostic := by
  simp [addNew, h]

theorem offer_eq (log : Log) (diagnostic : Diagnostic) :
    log.offer diagnostic = (!log.has diagnostic, log.addNew diagnostic) := by
  cases h : log.has diagnostic <;> simp [offer, addNew, h]

end Log

/-- The outcome of a run. -/
structure Report where
  valid : Bool
  errors : List Diagnostic
  warnings : List Diagnostic
  notices : List Diagnostic
  /-- What the manifest says about the add-on, if it could be read. -/
  metadata : Option Metadata
  deriving DecidableEq, Repr

namespace Report

def ofLog (log : Log) (metadata : Option Metadata) : Report :=
  { valid := log.isValid
    errors := log.ofSeverity .error
    warnings := log.ofSeverity .warning
    notices := log.ofSeverity .notice
    metadata := metadata }

/-- All findings, the errors first and the notices last. -/
def diagnostics (report : Report) : List Diagnostic :=
  report.errors ++ report.warnings ++ report.notices

def size (report : Report) : Nat := report.diagnostics.length

def isEmpty (report : Report) : Bool := report.diagnostics.isEmpty

end Report

namespace Diagnostic

def toJson (diagnostic : Diagnostic) : Json :=
  Json.ofMembers
    ([("code", .string diagnostic.code.name),
      ("severity", .string diagnostic.severity.name),
      ("message", .string diagnostic.message)] ++
      Json.textMember "description" diagnostic.description ++
      Json.textMember "file" diagnostic.file)

/-- Reads a finding. It is an error unless a severity is given. -/
def decode (value : Json) : Json.Decoded Diagnostic := do
  let record ← Json.decodeRecord 5 5 value
  return {
    code := ← record.require 0 "code" (Json.decodeChoice Code.ofName?)
    severity := ← record.getD 1 "severity" (Json.decodeChoice Severity.ofName?) .error
    message := ← record.require 2 "message" Json.decodeString
    description := ← record.getD 3 "description" (Json.decodeOption Json.decodeString) none
    file := ← record.getD 4 "file" (Json.decodeOption Json.decodeString) none }

end Diagnostic

def Report.listJson (diagnostics : List Diagnostic) : Json :=
  .array (diagnostics.map Diagnostic.toJson)

def Report.toObject (report : Report) : Json.Object :=
  .ofList
    [("valid", .bool report.valid),
      ("errors", Report.listJson report.errors),
      ("warnings", Report.listJson report.warnings),
      ("notices", Report.listJson report.notices),
      ("metadata", (report.metadata.map Metadata.toJson).getD .null)]

def Report.toJson (report : Report) : Json := report.toObject.toJson

end ExtensionLint
