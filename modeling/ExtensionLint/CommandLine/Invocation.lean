import ExtensionLint.CommandLine.Options
/-!
Invocations: what a command line asks for. The options that every command has may stand before and
after the name of the command, and the later place wins. Within one place no option may be given
twice.
-/

namespace ExtensionLint.CommandLine

/-- The form of a report. -/
inductive OutputFormat where
  | text
  | json
  deriving DecidableEq, Repr

def OutputFormat.ofName? (name : String) : Option OutputFormat :=
  [("text", OutputFormat.text), ("json", .json)].lookup name

/-- What linting a directory depends on. -/
structure LintRequest where
  directory : String
  format : OutputFormat
  privileged : Bool
  selfHosted : Bool
  alreadySigned : Bool
  minVersion : Option String
  compatibilityData : Option String
  deriving DecidableEq, Repr

/-- A command. -/
inductive Command where
  | lint (request : LintRequest)
  /-- Writes a configuration to start from, replacing one if that is asked for. -/
  | init (force : Bool)
  deriving DecidableEq, Repr

/-- What a command line asks for. -/
structure Invocation where
  config : Option String
  verbose : Bool
  command : Command
  deriving DecidableEq, Repr

/-- Why no command is run. -/
inductive Ending where
  /-- The version of the program is asked for. -/
  | version
  | help
  | usage (problem : UsageError)
  deriving DecidableEq, Repr

/-- What has been read at one place of the command line. -/
structure Given where
  switches : List Switch
  settings : List (Setting × String)
  words : List String
  command : Option (String × List String)
  deriving DecidableEq, Repr

namespace Given

def empty : Given := ⟨[], [], [], none⟩

/-- Whether a setting accepts a value. Only a version may be empty. -/
def accepts : Setting → String → Bool
  | .format, value => (OutputFormat.ofName? value).isSome
  | .minVersion, _ => true
  | .config, value => !value.isEmpty
  | .compatibilityData, value => !value.isEmpty

/-- Takes an item, where so many words are allowed. -/
def take (mostWords : Nat) (given : Given) : Item → Except Ending Given
  | .switch .version => .error .version
  | .switch .help => .error .help
  | .switch switch =>
      if given.switches.contains switch then .error (.usage .repeated)
      else .ok { given with switches := switch :: given.switches }
  | .setting setting value =>
      if !accepts setting value then .error (.usage (.badValue value))
      else if (given.settings.lookup setting).isSome then .error (.usage .repeated)
      else .ok { given with settings := (setting, value) :: given.settings }
  | .word text =>
      if mostWords ≤ given.words.length then .error (.usage (.unexpectedWord text))
      else if text.isEmpty then .error (.usage (.badValue text))
      else .ok { given with words := text :: given.words }
  | .command name arguments => .ok { given with command := some (name, arguments) }
  | .bad problem => .error (.usage problem)

def ofItems (mostWords : Nat) (items : List Item) : Except Ending Given :=
  items.foldlM (take mostWords) empty

def isOn (given : Given) (switch : Switch) : Bool := given.switches.contains switch

def value? (given : Given) (setting : Setting) : Option String := given.settings.lookup setting

end Given

namespace Invocation

def commonLong : List (String × Flag) :=
  [("config", .setting .config), ("verbose", .switch .verbose), ("help", .switch .help)]

def commonShort : List (Char × Flag) :=
  [('c', .setting .config), ('v', .switch .verbose), ('h', .switch .help)]

def programGrammar : Grammar :=
  ⟨commonLong ++ [("version", .switch .version)], commonShort ++ [('V', .switch .version)], true⟩

def lintGrammar : Grammar :=
  ⟨commonLong ++
      [("format", .setting .format), ("privileged", .switch .privileged),
        ("self-hosted", .switch .selfHosted), ("already-signed", .switch .alreadySigned),
        ("min-version", .setting .minVersion), ("compat-data", .setting .compatibilityData)],
    commonShort ++ [('f', .setting .format)], false⟩

def initGrammar : Grammar := ⟨commonLong ++ [("force", .switch .force)], commonShort, false⟩

def lintRequest (given : Given) : LintRequest :=
  { directory := given.words.head?.getD "."
    format := ((given.value? .format).bind OutputFormat.ofName?).getD .text
    privileged := given.isOn .privileged
    selfHosted := given.isOn .selfHosted
    alreadySigned := given.isOn .alreadySigned
    minVersion := given.value? .minVersion
    compatibilityData := given.value? .compatibilityData }

/-- The invocation of a command with what stands before and after its name. -/
def make (before after : Given) (command : Command) : Invocation :=
  { config := after.value? .config <|> before.value? .config
    verbose := before.isOn .verbose || after.isOn .verbose
    command := command }

/-- The commands that help can be asked for, help being one of them. -/
def commandNames : List String := ["lint", "init", "help"]

/-- How asking for help ends: what follows must lead to a command, and no command has others below
it. -/
def helpEnding : List String → Ending
  | [] => .help
  | [name] => if commandNames.contains name then .help else .usage (.unknownCommand name)
  | name :: other :: _ =>
      .usage (.unknownCommand (if commandNames.contains name then other else name))

/-- Reads a command, given what stands before its name. -/
def ofCommand (before : Given) (name : String) (arguments : List String) :
    Except Ending Invocation :=
  match name with
  | "lint" => do
      let after ← Given.ofItems 1 (lintGrammar.items arguments)
      return make before after (.lint (lintRequest after))
  | "init" => do
      let after ← Given.ofItems 0 (initGrammar.items arguments)
      return make before after (.init (after.isOn .force))
  | "help" => .error (helpEnding arguments)
  | name => .error (.usage (.unknownCommand name))

def ofArguments (arguments : List String) : Except Ending Invocation := do
  let before ← Given.ofItems 0 (programGrammar.items arguments)
  match before.command with
  | some (name, arguments) => ofCommand before name arguments
  | none => .error (.usage .missingCommand)

end Invocation
end ExtensionLint.CommandLine
