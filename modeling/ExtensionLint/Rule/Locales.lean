import ExtensionLint.Ordered
import ExtensionLint.Rule.Context
/-!
The rule about localizations. A locale is a directory in `_locales`; the default locale and every
other one need a file of messages, and a package with messages needs a default locale.
-/

namespace ExtensionLint

namespace Locales

def directory : String := "_locales/"

def messagesFile : String := "messages.json"

/-- The locale of a path and what follows it, if the path is inside a locale. -/
def entry? (path : String) : Option (String × String) := do
  let rest ← Text.stripFront? directory.toList path.toList
  let (locale, file) ← Text.splitFirst '/' rest
  if locale.isEmpty then none else some (String.ofList locale, String.ofList file)

/-- The locales that paths show, in ascending order. -/
def present (paths : List String) : List String :=
  Ordered.ofList ((paths.filterMap entry?).map Prod.fst)

/-- The locales with a file of messages, in ascending order. -/
def withMessages (paths : List String) : List String :=
  Ordered.ofList
    (((paths.filterMap entry?).filter fun (_, file) => file == messagesFile).map Prod.fst)

def messagesPath (locale : String) : String := directory ++ locale ++ "/" ++ messagesFile

end Locales

namespace RuleSetting

def checkLocales (setting : RuleSetting) (manifest : Manifest) : List Diagnostic :=
  let complete := Locales.withMessages setting.package.paths
  match manifest.string? "default_locale" with
  | none => if complete.isEmpty then [] else [setting.finding .noDefaultLocale []]
  | some locale =>
      (if complete.contains locale then []
        else [setting.finding .noMessagesFile [("locale", locale)]]) ++
      ((Locales.present setting.package.paths).filter fun other =>
        !complete.contains other && other != locale).map fun other =>
          (setting.finding .noMessagesFileInLocales [("locale", other)]).withFile
            (Locales.messagesPath other)

end RuleSetting
end ExtensionLint
