import ExtensionLint.Text.Pieces
/-!
Options on a command line. The arguments are cut into items: switches, settings with their values,
and words. A long option may carry its value after an equals sign, letters may stand together, and
after a lone `--` everything is a word. The value of a setting never looks like an option unless it
is attached. Reading stops at the first item that is at fault.
-/

namespace ExtensionLint.CommandLine

/-- An option without a value. -/
inductive Switch where
  | verbose
  | privileged
  | selfHosted
  | alreadySigned
  | force
  | help
  | version
  deriving DecidableEq, Repr

/-- An option with a value. -/
inductive Setting where
  | config
  | format
  | minVersion
  | compatibilityData
  deriving DecidableEq, Repr

/-- An option. -/
inductive Flag where
  | switch (switch : Switch)
  | setting (setting : Setting)
  deriving DecidableEq, Repr

/-- What is wrong with the arguments. -/
inductive UsageError where
  | unknownOption (argument : String)
  | missingValue (argument : String)
  | unwantedValue (argument : String)
  | repeated
  /-- A setting or word does not have the value. -/
  | badValue (value : String)
  | unexpectedWord (word : String)
  | unknownCommand (word : String)
  | missingCommand
  deriving DecidableEq, Repr

def UsageError.message : UsageError → String
  | unknownOption argument => "unexpected argument '" ++ argument ++ "'"
  | missingValue argument => "a value is required for '" ++ argument ++ "'"
  | unwantedValue argument => "no value is allowed in '" ++ argument ++ "'"
  | repeated => "an option cannot be used multiple times"
  | badValue value => "invalid value '" ++ value ++ "'"
  | unexpectedWord word => "unexpected argument '" ++ word ++ "'"
  | unknownCommand word => "unrecognized subcommand '" ++ word ++ "'"
  | missingCommand => "a subcommand is required"

/-- The options that a place on the command line knows. -/
structure Grammar where
  long : List (String × Flag)
  short : List (Char × Flag)
  /-- Whether a word names a command, to which all that follows belongs. -/
  hasCommands : Bool

/-- A piece of the command line. -/
inductive Item where
  | switch (switch : Switch)
  | setting (setting : Setting) (value : String)
  | word (text : String)
  | command (name : String) (arguments : List String)
  | bad (problem : UsageError)
  deriving DecidableEq, Repr

/-- What one argument is. -/
inductive Argument where
  /-- The mark after which everything is a word. -/
  | separator
  | word
  /-- Items, after which a setting may wait for its value. -/
  | options (items : List Item) (waiting : Option Setting)

namespace Grammar

/-- Reads a long option, given what follows the two dashes. -/
def readLong (grammar : Grammar) (argument : String) (text : List Char) : Argument :=
  let (name, value) := match Text.splitFirst '=' text with
    | some (name, value) => (name, some value)
    | none => (text, none)
  match grammar.long.lookup (String.ofList name), value with
  | none, _ => .options [.bad (.unknownOption argument)] none
  | some (.switch switch), none => .options [.switch switch] none
  | some (.switch _), some _ => .options [.bad (.unwantedValue argument)] none
  | some (.setting setting), none => .options [] (some setting)
  | some (.setting setting), some value => .options [.setting setting (String.ofList value)] none

/-- Reads letters that stand together. What follows the letter of a setting is its value. -/
def readShort (grammar : Grammar) (argument : String) : List Char → List Item × Option Setting
  | [] => ([], none)
  | letter :: rest => match grammar.short.lookup letter with
    | none => ([.bad (.unknownOption argument)], none)
    | some (.switch switch) =>
        let (items, waiting) := readShort grammar argument rest
        (.switch switch :: items, waiting)
    | some (.setting setting) => match rest with
      | [] => ([], some setting)
      | '=' :: value => ([.setting setting (String.ofList value)], none)
      | value => ([.setting setting (String.ofList value)], none)

def readArgument (grammar : Grammar) (argument : String) : Argument :=
  match argument.toList with
  | ['-', '-'] => .separator
  | '-' :: '-' :: text => grammar.readLong argument text
  | '-' :: letter :: rest =>
      let (items, waiting) := grammar.readShort argument (letter :: rest)
      .options items waiting
  | _ => .word

/-- The items of arguments, given the setting that waits for its value. -/
def itemsFrom (grammar : Grammar) : Option Setting → List String → List Item
  | none, [] => []
  | some _, [] => [.bad (.missingValue "")]
  | some setting, argument :: rest => match grammar.readArgument argument with
    | .word => .setting setting argument :: itemsFrom grammar none rest
    | _ => [.bad (.missingValue argument)]
  | none, argument :: rest => match grammar.readArgument argument with
    | .separator => rest.map .word
    | .word =>
        if grammar.hasCommands then [.command argument rest]
        else .word argument :: itemsFrom grammar none rest
    | .options items waiting => items ++ itemsFrom grammar waiting rest

def items (grammar : Grammar) (arguments : List String) : List Item :=
  grammar.itemsFrom none arguments

end Grammar
end ExtensionLint.CommandLine
