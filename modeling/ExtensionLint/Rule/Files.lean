import ExtensionLint.Rule.Context
/-!
Rules about the files that a manifest refers to. A file that the package does not have gives a
finding at its canonical path.
-/

namespace ExtensionLint.RuleSetting

def backgroundFile (setting : RuleSetting) (kind path : String) : List Diagnostic :=
  if setting.has path then []
  else
    let path := PackagePath.normalize path
    [(setting.finding .manifestBackgroundFileNotFound
      [("kind", kind), ("path", path)]).withFile path]

/-- The findings about a background service worker. Where workers are not accepted it is an error
to declare one; where they are, the file is needed from manifest version 3 on. -/
def backgroundWorker (setting : RuleSetting) (manifest : Manifest) (path : String) :
    List Diagnostic :=
  if !setting.context.backgroundServiceWorker then
    [(setting.finding .manifestFieldUnsupported
      [("path", "/background/service_worker"), ("detail", "is not supported")]).withSeverity
        .error]
  else if 3 ≤ manifest.version then setting.backgroundFile "service_worker" path
  else []

def checkBackground (setting : RuleSetting) (manifest : Manifest) : List Diagnostic :=
  match manifest.get? "background" with
  | none => []
  | some background =>
      (Json.stringsOf (background.get? "scripts")).flatMap (setting.backgroundFile "script") ++
        (((background.get? "page").bind Json.string?).map
          (setting.backgroundFile "page")).getD [] ++
        (((background.get? "service_worker").bind Json.string?).map
          (setting.backgroundWorker manifest)).getD []

def contentPattern (setting : RuleSetting) (pattern : String) : List Diagnostic :=
  match setting.policy.blockedHost? pattern with
  | some host => [setting.finding .manifestInvalidContent [("pattern", pattern), ("host", host)]]
  | none => []

def contentFile (setting : RuleSetting) (path : String) : List Diagnostic :=
  if setting.has path then []
  else
    let path := PackagePath.normalize path
    [(setting.finding .manifestContentScriptFileNotFound [("path", path)]).withFile path]

def contentScript (setting : RuleSetting) (script : Json) : List Diagnostic :=
  (Json.stringsOf (script.get? "matches")).flatMap setting.contentPattern ++
    (Json.stringsOf (script.get? "js") ++ Json.stringsOf (script.get? "css")).flatMap
      setting.contentFile

def checkContentScripts (setting : RuleSetting) (manifest : Manifest) : List Diagnostic :=
  (((manifest.get? "content_scripts").bind Json.items?).getD []).flatMap setting.contentScript

/-- The file of affixes that goes with a dictionary. -/
def affixPath (path : String) : String :=
  match Text.stripBack? ".dic".toList path.toList with
  | some stem => String.ofList (stem ++ ".aff".toList)
  | none => path ++ ".aff"

def dictionaryFile (setting : RuleSetting) (path : String) : List Diagnostic :=
  if setting.has path then []
  else [(setting.finding .manifestDictNotFound [("path", path)]).withFile path]

def dictionaryFiles (setting : RuleSetting) (path : String) : List Diagnostic :=
  let path := PackagePath.normalize path
  setting.dictionaryFile path ++ setting.dictionaryFile (affixPath path)

/-- The finding about the number of dictionaries, which is to be one. -/
def dictionaryCount (setting : RuleSetting) (count : Nat) : List Diagnostic :=
  match count with
  | 0 => [setting.finding .manifestEmptyDicts []]
  | 1 => []
  | _ => [setting.finding .manifestMultipleDicts []]

/-- The findings about the dictionaries of an add-on that is one. -/
def checkDictionaries (setting : RuleSetting) (manifest : Manifest) : List Diagnostic :=
  if manifest.kind != .dictionary then []
  else
    (if manifest.addonId?.isNone then [setting.finding .manifestDictMissingId []] else []) ++
      match (manifest.get? "dictionaries").bind Json.members? with
      | none => []
      | some dictionaries =>
          setting.dictionaryCount dictionaries.length ++
            (dictionaries.filterMap fun (_, path) => path.string?).flatMap
              setting.dictionaryFiles

end ExtensionLint.RuleSetting
