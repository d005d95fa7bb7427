import ExtensionLint.Proofs.IconDeclarations
import ExtensionLint.Proofs.Normalization
import ExtensionLint.Proofs.PackagePath
import ExtensionLint.Proofs.TextSearch
import ExtensionLint.Rule.Files

/-!
The files that a manifest refers to. The references are read off the declared properties, each for
one role; normalizing a manifest keeps them. What the walks of the linter collect is stated against
them: the declarations of icons, their groups, and the images of a theme.
-/

namespace ExtensionLint

/-- What a manifest refers to a file for. -/
inductive FileRole where
  | background
  | contentScript
  | dictionary
  | icon
  | themeImage
  deriving DecidableEq, Repr

namespace Json

variable {value : Option Json}

theorem mem_stringsOf {s : String} :
    s ∈ stringsOf value ↔ ∃ items, value = some (.array items) ∧ .string s ∈ items := by
  rw [stringsOf, mem_getD_map]
  simp only [mem_strings]
  constructor
  · rintro ⟨_, hvalue, items, rfl, hs⟩
    exact ⟨items, hvalue, hs⟩
  · rintro ⟨items, hvalue, hs⟩
    exact ⟨_, hvalue, items, rfl, hs⟩

theorem mem_getD_members {member : String × Json} :
    member ∈ (value.bind members?).getD [] ↔
      ∃ members, value = some (.object members) ∧ member ∈ members := by
  rcases value with _ | value
  · simp
  · cases value <;> simp [members?]

end Json

/-- Holds of the paths of a value that declares icons: one path, or an object of paths by size. -/
inductive Asset.DeclaresIcon : Json → String → Prop where
  | path (path : String) : DeclaresIcon (.string path) path
  | bySize {members : Json.Members} {size path : String} (h : (size, .string path) ∈ members) :
      DeclaresIcon (.object members) path

theorem Asset.declaresIcon_iff {value : Json} {path : String} :
    DeclaresIcon value path ↔ ∃ size, DeclaresSized value path size := by
  constructor
  · intro h
    cases h with
    | path => exact ⟨none, .path path⟩
    | bySize hmember => exact ⟨_, .bySize hmember fun n => natural?_eq_some_iff_writesSize⟩
  · rintro ⟨size, h⟩
    cases h with
    | path => exact .path path
    | bySize hmember hsize => exact .bySize hmember

namespace Manifest

/-- Holds of the paths of dictionaries, which only an add-on of that kind has. -/
def DeclaresDictionary (manifest : Manifest) (path : String) : Prop :=
  manifest.kind = .dictionary ∧ ∃ dictionaries language,
    manifest.get? "dictionaries" = some (.object dictionaries) ∧
      (language, .string path) ∈ dictionaries

/-- Holds of the paths that a manifest refers to, as they are written. A service worker is referred to
where workers are accepted, from version 3 on; the images of a theme are those of an add-on that is
one. -/
inductive References (context : LintContext) (manifest : Manifest) : FileRole → String → Prop where
  | script {background : Json} {scripts : List Json} {path : String}
      (hbackground : manifest.get? "background" = some background)
      (hscripts : background.get? "scripts" = some (.array scripts))
      (hpath : .string path ∈ scripts) : References context manifest .background path
  | page {background : Json} {path : String}
      (hbackground : manifest.get? "background" = some background)
      (hpath : background.get? "page" = some (.string path)) :
      References context manifest .background path
  | worker {background : Json} {path : String}
      (hbackground : manifest.get? "background" = some background)
      (hpath : background.get? "service_worker" = some (.string path))
      (haccepted : context.backgroundServiceWorker = true) (hversion : 3 ≤ manifest.version) :
      References context manifest .background path
  | contentScript {scripts files : List Json} {script : Json} {key path : String}
      (hscripts : manifest.get? "content_scripts" = some (.array scripts))
      (hscript : script ∈ scripts) (hkey : key = "js" ∨ key = "css")
      (hfiles : script.get? key = some (.array files)) (hpath : .string path ∈ files) :
      References context manifest .contentScript path
  | dictionary {path : String} (hpath : manifest.DeclaresDictionary path) :
      References context manifest .dictionary path
  | affix {path : String} (hpath : manifest.DeclaresDictionary path) :
      References context manifest .dictionary (RuleSetting.affixPath path)
  | icon {icons : Json} {path : String} (hicons : manifest.get? "icons" = some icons)
      (hpath : Asset.DeclaresIcon icons path) : References context manifest .icon path
  | defaultIcon {key path : String} {action icons : Json} (hkey : key ∈ Asset.actionKeys)
      (haction : manifest.get? key = some action)
      (hicons : action.get? "default_icon" = some icons)
      (hpath : Asset.DeclaresIcon icons path) : References context manifest .icon path
  | themeIcon {key variant path : String} {action entry : Json} {entries : List Json}
      (hkey : key ∈ Asset.actionKeys) (haction : manifest.get? key = some action)
      (hentries : action.get? "theme_icons" = some (.array entries)) (hentry : entry ∈ entries)
      (hvariant : variant = "light" ∨ variant = "dark")
      (hpath : entry.get? variant = some (.string path)) : References context manifest .icon path
  | themeImage {theme image : Json} {images : Json.Members} {property path : String}
      (hkind : manifest.kind = .staticTheme) (htheme : manifest.get? "theme" = some theme)
      (himages : theme.get? "images" = some (.object images))
      (himage : (property, image) ∈ images)
      (hpath : image = .string path ∨ ∃ paths, image = .array paths ∧ .string path ∈ paths) :
      References context manifest .themeImage path

section Inversion

variable {context : LintContext} {manifest : Manifest} {path : String}

theorem references_background : manifest.References context .background path ↔
    ∃ background, manifest.get? "background" = some background ∧
      ((∃ scripts, background.get? "scripts" = some (.array scripts) ∧ .string path ∈ scripts) ∨
        background.get? "page" = some (.string path) ∨
        background.get? "service_worker" = some (.string path) ∧
          context.backgroundServiceWorker = true ∧ 3 ≤ manifest.version) := by
  constructor
  · intro h
    cases h with
    | script hbackground hscripts hpath => exact ⟨_, hbackground, .inl ⟨_, hscripts, hpath⟩⟩
    | page hbackground hpath => exact ⟨_, hbackground, .inr (.inl hpath)⟩
    | worker hbackground hpath haccepted hversion =>
        exact ⟨_, hbackground, .inr (.inr ⟨hpath, haccepted, hversion⟩)⟩
  · rintro ⟨background, hbackground, ⟨scripts, hscripts, hpath⟩ | hpath |
      ⟨hpath, haccepted, hversion⟩⟩
    · exact .script hbackground hscripts hpath
    · exact .page hbackground hpath
    · exact .worker hbackground hpath haccepted hversion

/-- References to icons are their declarations, with a size or without. -/
theorem references_icon : manifest.References context .icon path ↔
    ∃ size, manifest.DeclaresIcon path size := by
  constructor
  · intro h
    cases h with
    | icon hicons hpath =>
        obtain ⟨size, hsized⟩ := Asset.declaresIcon_iff.mp hpath
        exact ⟨size, .icons hicons hsized⟩
    | defaultIcon hkey haction hicons hpath =>
        obtain ⟨size, hsized⟩ := Asset.declaresIcon_iff.mp hpath
        exact ⟨size, .defaultIcon hkey haction hicons hsized⟩
    | themeIcon hkey haction hentries hentry hvariant hpath =>
        exact ⟨_, .themeIcon hkey haction hentries hentry hvariant hpath fun n =>
          Asset.themeIconSize?_eq_some_iff⟩
  · rintro ⟨size, h⟩
    cases h with
    | icons hicons hpath => exact .icon hicons (Asset.declaresIcon_iff.mpr ⟨size, hpath⟩)
    | defaultIcon hkey haction hicons hpath =>
        exact .defaultIcon hkey haction hicons (Asset.declaresIcon_iff.mpr ⟨size, hpath⟩)
    | themeIcon hkey haction hentries hentry hvariant hpath hsize =>
        exact .themeIcon hkey haction hentries hentry hvariant hpath

theorem references_dictionary : manifest.References context .dictionary path ↔
    ∃ declared, manifest.DeclaresDictionary declared ∧
      (path = declared ∨ path = RuleSetting.affixPath declared) := by
  constructor
  · intro h
    cases h with
    | dictionary hpath => exact ⟨_, hpath, .inl rfl⟩
    | affix hpath => exact ⟨_, hpath, .inr rfl⟩
  · rintro ⟨declared, hdeclared, rfl | rfl⟩
    · exact .dictionary hdeclared
    · exact .affix hdeclared

theorem declaresDictionary_iff : manifest.DeclaresDictionary path ↔
    manifest.kind = .dictionary ∧ ∃ dictionaries,
      (manifest.get? "dictionaries").bind Json.members? = some dictionaries ∧
        path ∈ dictionaries.filterMap fun (_, path) => path.string? := by
  simp only [DeclaresDictionary, Option.bind_eq_some_iff, Json.members?_eq_some, exists_eq_right,
    List.mem_filterMap, Prod.exists, Json.string?_eq_some, exists_and_left]

end Inversion

theorem not_mem_replacedKeys_of_action {key : String} (hkey : key ∈ Asset.actionKeys) :
    key ∉ replacedKeys :=
  (show ∀ key ∈ Asset.actionKeys, key ∉ replacedKeys by decide) key hkey

/-- References depend on the version, the kind and the keys that normalizing leaves. -/
theorem References.of_same {context : LintContext} {first second : Manifest} {role : FileRole}
    {path : String} (h : first.References context role path)
    (hversion : first.version = second.version) (hkind : first.kind = second.kind)
    (hget : ∀ key, key ∉ replacedKeys → first.get? key = second.get? key) :
    second.References context role path := by
  have hbackground := hget "background" (by decide)
  have hscripts := hget "content_scripts" (by decide)
  have hdictionaries := hget "dictionaries" (by decide)
  have hicons := hget "icons" (by decide)
  have htheme := hget "theme" (by decide)
  have haction : ∀ key ∈ Asset.actionKeys, first.get? key = second.get? key :=
    fun key hkey => hget key (not_mem_replacedKeys_of_action hkey)
  have hdictionary : ∀ path, first.DeclaresDictionary path → second.DeclaresDictionary path := by
    rintro path ⟨hfirst, dictionaries, language, hdeclared, hpath⟩
    exact ⟨hkind ▸ hfirst, dictionaries, language, hdictionaries ▸ hdeclared, hpath⟩
  cases h with
  | script hdeclared hscript hpath => exact .script (hbackground ▸ hdeclared) hscript hpath
  | page hdeclared hpath => exact .page (hbackground ▸ hdeclared) hpath
  | worker hdeclared hpath haccepted hthree =>
      exact .worker (hbackground ▸ hdeclared) hpath haccepted (hversion ▸ hthree)
  | contentScript hdeclared hscript hkey hfiles hpath =>
      exact .contentScript (hscripts ▸ hdeclared) hscript hkey hfiles hpath
  | dictionary hpath => exact .dictionary (hdictionary _ hpath)
  | affix hpath => exact .affix (hdictionary _ hpath)
  | icon hdeclared hpath => exact .icon (hicons ▸ hdeclared) hpath
  | defaultIcon hkey hdeclared hicon hpath =>
      exact .defaultIcon hkey (haction _ hkey ▸ hdeclared) hicon hpath
  | themeIcon hkey hdeclared hentries hentry hvariant hpath =>
      exact .themeIcon hkey (haction _ hkey ▸ hdeclared) hentries hentry hvariant hpath
  | themeImage hstatic hdeclared himages himage hpath =>
      exact .themeImage (hkind ▸ hstatic) (htheme ▸ hdeclared) himages himage hpath

theorem references_normalize {context : LintContext} {manifest : Manifest} {role : FileRole}
    {path : String} : manifest.normalize.References context role path ↔
      manifest.References context role path := by
  constructor
  · exact fun h => h.of_same rfl rfl fun key hkey => manifest.get?_normalize hkey
  · exact fun h => h.of_same rfl rfl fun key hkey => (manifest.get?_normalize hkey).symm

end Manifest

namespace RuleSetting

theorem affixPath_of_dic (stem : List Char) :
    affixPath (String.ofList (stem ++ ".dic".toList)) = String.ofList (stem ++ ".aff".toList) := by
  have hstem : Text.stripBack? ".dic".toList (stem ++ ".dic".toList) = some stem :=
    Text.stripBack?_eq_some_iff.mpr rfl
  have hlist : (String.ofList (stem ++ ".dic".toList)).toList = stem ++ ".dic".toList :=
    String.toList_ofList
  rw [affixPath, hlist, hstem]

theorem affixPath_of_not_dic {path : String} (h : ¬".dic".toList <:+ path.toList) :
    affixPath path = path ++ ".aff" := by
  have hnone : Text.stripBack? ".dic".toList path.toList = none := by
    rw [Option.eq_none_iff_forall_ne_some]
    intro stem hstem
    exact h ⟨stem, (Text.stripBack?_eq_some_iff.mp hstem).symm⟩
  rw [affixPath, hnone]

/-- The file of affixes of a canonical path is the canonical path of the file of affixes. -/
theorem normalize_affixPath (path : String) :
    PackagePath.normalize (affixPath path) = affixPath (PackagePath.normalize path) := by
  by_cases hdic : ".dic".toList <:+ path.toList
  · obtain ⟨stem, hstem⟩ := hdic
    have hpath : path = String.ofList (stem ++ ".dic".toList) := by
      rw [hstem, String.ofList_toList]
    rw [hpath, affixPath_of_dic, PackagePath.normalize_append (by decide) (by decide),
      PackagePath.normalize_append (by decide) (by decide), affixPath_of_dic]
  · have hcanonical : ¬".dic".toList <:+ (PackagePath.normalize path).toList :=
      fun h => hdic (PackagePath.suffix_of_suffix_normalize (by decide) h)
    have happend : path ++ ".aff" = String.ofList (path.toList ++ ".aff".toList) := by
      rw [← String.toList_append, String.ofList_toList]
    rw [affixPath_of_not_dic hdic, affixPath_of_not_dic hcanonical, happend,
      PackagePath.normalize_append (by decide) (by decide), String.ofList_toList,
      ← String.toList_inj, String.toList_ofList, String.toList_append]

end RuleSetting

namespace Asset

theorem mem_icons (context : LintContext) {manifest : Manifest} {path : String} :
    path ∈ (icons manifest).map IconReference.path ↔
      ∃ declared, manifest.References context .icon declared ∧
        PackagePath.normalize declared = path := by
  simp only [mem_paths_icons, Manifest.references_icon, exists_and_right]

theorem mem_themePaths {image : Json} {path : String} :
    path ∈ themePaths image ↔
      image = .string path ∨ ∃ paths, image = .array paths ∧ .string path ∈ paths := by
  cases image with
  | string image => simp [themePaths, eq_comm]
  | _ => simp [themePaths, Json.mem_strings]

/-- The pointer to the images of a theme goes through members only. -/
theorem pointer?_themeImages (manifest : Manifest) :
    manifest.pointer? "/theme/images" =
      (manifest.get? "theme").bind fun theme => theme.get? "images" := by
  have htokens : Json.Pointer.tokens? "/theme/images" =
      some ["theme".toList, "images".toList] := by decide
  have hindex : Json.Pointer.looseIndex? "images".toList = none := by decide
  rw [Manifest.pointer?, htokens]
  simp only [Json.Pointer.walk?, Json.Pointer.step?_of_not_index hindex, String.ofList_toList,
    Option.bind_fun_some]

theorem mem_themeImages (context : LintContext) {manifest : Manifest} {path : String}
    (hkind : manifest.kind = .staticTheme) :
    path ∈ (themeImages manifest).map ThemeImageReference.path ↔
      ∃ declared, manifest.References context .themeImage declared ∧
        PackagePath.normalize declared = path := by
  rw [themeImages, pointer?_themeImages, List.map_flatMap, List.mem_flatMap]
  simp only [Json.mem_getD_members, Option.bind_eq_some_iff, List.map_map, List.mem_map,
    mem_themePaths, Function.comp_apply]
  constructor
  · rintro ⟨member, ⟨images, ⟨theme, htheme, himages⟩, hmember⟩, declared, hdeclared, hpath⟩
    exact ⟨declared, .themeImage hkind htheme himages hmember hdeclared, hpath⟩
  · rintro ⟨declared, href, hpath⟩
    cases href with
    | themeImage hkind htheme himages himage hdeclared =>
        exact ⟨_, ⟨_, ⟨_, htheme, himages⟩, himage⟩, declared, hdeclared, hpath⟩

end Asset
end ExtensionLint
