import ExtensionLint.Proofs.Filling
import ExtensionLint.Proofs.Findings
import ExtensionLint.Proofs.PackageBuild
import ExtensionLint.Proofs.TextSearch
import Mathlib.Data.List.Sort

/-!
Localizations of a package. Which locales there are, and which of them have messages, is read off the
listing of the package. So the findings about locales are determined by the listing and the default
locale of the manifest: each locale without messages is reported once, in ascending order, and the
default locale by itself.
-/

namespace ExtensionLint

namespace Locales

/-- A name that a directory of `_locales` can have. -/
structure IsName (locale : String) : Prop where
  nonempty : locale ≠ ""
  slash : '/' ∉ locale.toList

/-- Holds of the locales that paths show: there is a path below the directory of the locale, or the
path of the directory itself. -/
structure Shows (paths : List String) (locale : String) : Prop where
  isName : IsName locale
  listed : ∃ below, "_locales/" ++ locale ++ "/" ++ below ∈ paths

/-- Holds of the locales whose file of messages is among the paths. -/
structure HasMessages (paths : List String) (locale : String) : Prop where
  isName : IsName locale
  listed : "_locales/" ++ locale ++ "/messages.json" ∈ paths

section Listing

variable {paths : List String} {path locale file : String}

theorem toList_inLocale (locale file : String) :
    ("_locales/" ++ locale ++ "/" ++ file).toList =
      directory.toList ++ (locale.toList ++ '/' :: file.toList) := by
  simp only [String.toList_append, List.append_assoc]
  rfl

/-- A path is inside a locale if it is the directory of locales, the locale, a slash and what
follows. -/
theorem entry?_eq_some_iff :
    entry? path = some (locale, file) ↔
      IsName locale ∧ path = "_locales/" ++ locale ++ "/" ++ file := by
  constructor
  · intro h
    obtain ⟨rest, hrest, h⟩ := Option.bind_eq_some_iff.mp h
    obtain ⟨⟨name, below⟩, hsplit, h⟩ := Option.bind_eq_some_iff.mp h
    obtain ⟨hnonempty, h⟩ := Option.ite_none_left_eq_some.mp h
    obtain ⟨rfl, rfl⟩ := Prod.mk.inj (Option.some.inj h)
    rw [Text.stripFront?_eq_some_iff] at hrest
    obtain ⟨hpath, hslash⟩ := Text.splitFirst_eq_some_iff.mp hsplit
    refine ⟨⟨?_, by rwa [String.toList_ofList]⟩, ?_⟩
    · intro hempty
      rw [← String.toList_eq_nil_iff, String.toList_ofList] at hempty
      exact hnonempty (List.isEmpty_iff.mpr hempty)
    · rw [← String.toList_inj, toList_inLocale, String.toList_ofList, String.toList_ofList, hrest,
        hpath]
  · rintro ⟨hname, rfl⟩
    have hrest := Text.stripFront?_eq_some_iff.mpr (toList_inLocale locale file)
    have hsplit : Text.splitFirst '/' (locale.toList ++ '/' :: file.toList) =
        some (locale.toList, file.toList) := Text.splitFirst_append hname.slash _
    have hnonempty : ¬locale.toList.isEmpty = true := fun hempty =>
      hname.nonempty (String.toList_eq_nil_iff.mp (List.isEmpty_iff.mp hempty))
    simp only [hrest, hsplit, entry?, Option.bind_eq_bind, Option.bind_some, if_neg hnonempty,
      String.ofList_toList]

theorem mem_filterMap_entry? :
    (locale, file) ∈ paths.filterMap entry? ↔
      IsName locale ∧ "_locales/" ++ locale ++ "/" ++ file ∈ paths := by
  rw [List.mem_filterMap]
  constructor
  · rintro ⟨path, hmem, hentry⟩
    obtain ⟨hname, rfl⟩ := entry?_eq_some_iff.mp hentry
    exact ⟨hname, hmem⟩
  · rintro ⟨hname, hmem⟩
    exact ⟨_, hmem, entry?_eq_some_iff.mpr ⟨hname, rfl⟩⟩

theorem mem_present : locale ∈ present paths ↔ Shows paths locale := by
  rw [present, Ordered.mem_ofList, List.mem_map]
  constructor
  · rintro ⟨⟨name, below⟩, hmem, rfl⟩
    obtain ⟨hname, hpath⟩ := mem_filterMap_entry?.mp hmem
    exact ⟨hname, below, hpath⟩
  · rintro ⟨hname, below, hpath⟩
    exact ⟨(locale, below), mem_filterMap_entry?.mpr ⟨hname, hpath⟩, rfl⟩

theorem messagesPath_eq (locale : String) :
    messagesPath locale = "_locales/" ++ locale ++ "/messages.json" := by
  rw [messagesPath, String.append_assoc]
  rfl

theorem mem_withMessages : locale ∈ withMessages paths ↔ HasMessages paths locale := by
  rw [withMessages, Ordered.mem_ofList, List.mem_map]
  constructor
  · rintro ⟨⟨name, file⟩, hmem, rfl⟩
    obtain ⟨hentry, hfile⟩ := List.mem_filter.mp hmem
    obtain rfl := beq_iff_eq.mp hfile
    obtain ⟨hname, hpath⟩ := mem_filterMap_entry?.mp hentry
    exact ⟨hname, messagesPath_eq name ▸ hpath⟩
  · rintro ⟨hname, hpath⟩
    rw [← messagesPath_eq] at hpath
    have hentry : (locale, messagesFile) ∈ paths.filterMap entry? :=
      mem_filterMap_entry?.mpr ⟨hname, hpath⟩
    exact ⟨(locale, messagesFile), List.mem_filter.mpr ⟨hentry, beq_self_eq_true _⟩, rfl⟩

end Listing

example : present ["_locales/", "_locales/de/", "_locales/fr/", "_locales/fr/messages.json",
      "_locales/fr/extra/messages.json", "icons/messages.json"] = ["de", "fr"] := by
  decide

/-- Holds of the locales, other than a given one, that paths show without messages, in ascending
order. -/
structure Lacking (paths : List String) (standard : String) (locales : List String) : Prop where
  ascending : locales.Pairwise (· < ·)
  mem_iff : ∀ locale, locale ∈ locales ↔
    Shows paths locale ∧ ¬HasMessages paths locale ∧ locale ≠ standard

theorem Lacking.unique {paths : List String} {standard : String} {locales others : List String}
    (h : Lacking paths standard locales) (hothers : Lacking paths standard others) :
    locales = others :=
  h.ascending.eq_of_mem_iff hothers.ascending fun locale =>
    (h.mem_iff locale).trans (hothers.mem_iff locale).symm

/-- The locales that the rule goes through are those that lack messages. -/
theorem lacking_filter (paths : List String) (standard : String) :
    Lacking paths standard ((present paths).filter fun locale =>
      !(withMessages paths).contains locale && locale != standard) where
  ascending := (Ordered.pairwise_ofList _).filter _
  mem_iff locale := by
    rw [List.mem_filter, mem_present, Bool.and_eq_true, Bool.not_eq_true', bne_iff_ne,
      ← mem_withMessages, ← List.contains_iff_mem, Bool.not_eq_true]

end Locales

namespace RuleSetting

open Locales

variable (setting : RuleSetting)

/-- The finding about the file of messages that a locale lacks. -/
def lackingMessages (locale : String) : Diagnostic :=
  (setting.finding .noMessagesFileInLocales [("locale", locale)]).withFile
    ("_locales/" ++ locale ++ "/messages.json")

/-- Holds of the findings about locales that a listing calls for, given the default locale if the
manifest has one. -/
inductive LocaleFindings (paths : List String) : Option String → List Diagnostic → Prop where
  | noLocale (h : ∀ locale, ¬HasMessages paths locale) : LocaleFindings paths none []
  | noDefault {locale : String} (h : HasMessages paths locale) :
      LocaleFindings paths none [setting.finding .noDefaultLocale []]
  | complete {standard : String} {locales : List String} (h : HasMessages paths standard)
      (hlocales : Lacking paths standard locales) :
      LocaleFindings paths (some standard) (locales.map setting.lackingMessages)
  | incomplete {standard : String} {locales : List String} (h : ¬HasMessages paths standard)
      (hlocales : Lacking paths standard locales) :
      LocaleFindings paths (some standard)
        (setting.finding .noMessagesFile [("locale", standard)] ::
          locales.map setting.lackingMessages)

theorem LocaleFindings.unique {setting : RuleSetting} {paths : List String}
    {standard : Option String} {findings others : List Diagnostic}
    (h : setting.LocaleFindings paths standard findings)
    (hothers : setting.LocaleFindings paths standard others) : findings = others := by
  cases h with
  | noLocale h =>
      cases hothers with
      | noLocale _ => rfl
      | noDefault hsome => exact absurd hsome (h _)
  | noDefault h =>
      cases hothers with
      | noLocale hnone => exact absurd h (hnone _)
      | noDefault _ => rfl
  | complete h hlocales =>
      cases hothers with
      | complete _ hothers => rw [hlocales.unique hothers]
      | incomplete hnone _ => exact absurd h hnone
  | incomplete h hlocales =>
      cases hothers with
      | complete hsome _ => exact absurd hsome h
      | incomplete _ hothers => rw [hlocales.unique hothers]

theorem localeFindings_checkLocales (manifest : Manifest) :
    setting.LocaleFindings setting.package.paths (manifest.string? "default_locale")
      (setting.checkLocales manifest) := by
  have hfinding : (fun locale => (setting.finding .noMessagesFileInLocales
      [("locale", locale)]).withFile (messagesPath locale)) = setting.lackingMessages := by
    funext locale
    rw [messagesPath_eq, lackingMessages]
  rw [checkLocales]
  cases manifest.string? "default_locale" with
  | none =>
      by_cases hcomplete : (withMessages setting.package.paths).isEmpty = true
      · rw [if_pos hcomplete]
        refine .noLocale fun locale hlocale => ?_
        rw [← mem_withMessages, List.isEmpty_iff.mp hcomplete] at hlocale
        exact List.not_mem_nil hlocale
      · rw [if_neg hcomplete]
        have hne : withMessages setting.package.paths ≠ [] := mt List.isEmpty_iff.mpr hcomplete
        obtain ⟨locale, hlocale⟩ := List.exists_mem_of_ne_nil _ hne
        exact .noDefault (mem_withMessages.mp hlocale)
  | some standard =>
      have hothers := lacking_filter setting.package.paths standard
      by_cases hstandard : (withMessages setting.package.paths).contains standard = true
      · simp only [if_pos hstandard, List.nil_append, hfinding]
        exact .complete (mem_withMessages.mp (List.contains_iff_mem.mp hstandard)) hothers
      · simp only [if_neg hstandard, List.singleton_append, hfinding]
        exact .incomplete (fun h => hstandard (List.contains_iff_mem.mpr (mem_withMessages.mpr h)))
          hothers

/-- The findings of the rules about locales are those that the listing of the package calls for, and no
others. -/
theorem run_localizations (manifest : Manifest) (findings : List Diagnostic) :
    withCodes [.noDefaultLocale, .noMessagesFile, .noMessagesFileInLocales] (setting.run manifest) =
        findings ↔
      setting.LocaleFindings setting.package.paths (manifest.string? "default_locale") findings := by
  have hcheck := setting.localeFindings_checkLocales manifest
  have hrun : withCodes [.noDefaultLocale, .noMessagesFile, .noMessagesFileInLocales]
      (setting.run manifest) = setting.checkLocales manifest :=
    setting.withCodes_run manifest .locales
  rw [hrun]
  constructor
  · rintro rfl
    exact hcheck
  · exact hcheck.unique

end RuleSetting
end ExtensionLint
