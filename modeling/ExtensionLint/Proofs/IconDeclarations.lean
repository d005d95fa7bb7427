import ExtensionLint.Asset.Reference
import ExtensionLint.Proofs.DecimalDigits
import ExtensionLint.Proofs.Lists
import ExtensionLint.Proofs.Members
import ExtensionLint.Proofs.PackagePath
import Mathlib.Data.List.Induction

/-!
Declarations of icons, and what they are gathered to. A manifest declares icons in several places and
forms, with sizes or without. Gathering takes one declaration after the other, and what has been
gathered is determined by those taken so far: each canonical path once, in ascending order, with the
sizes declared for it, each once.
-/

namespace ExtensionLint

namespace Json

theorem nat?_eq_some_iff {value : Json} {n : Nat} : value.nat? = some n ↔ value = .ofNat n := by
  fun_cases nat? value with
  | case1 m =>
      simp only [ofNat, Option.some.injEq, Json.number.injEq, Number.integer.injEq,
        Int.ofNat_eq_natCast, Int.ofNat_inj]
  | case2 => simp_all [ofNat]

theorem mem_getD_items {value : Option Json} {item : Json} :
    item ∈ (value.bind items?).getD [] ↔ ∃ items, value = some (.array items) ∧ item ∈ items := by
  rcases value with _ | value
  · simp
  · cases value <;> simp [items?]

end Json

namespace Asset

/-- Holds of the texts that stand for a size: its decimal digits, with zeros in front or not, after a
plus sign or not. A size is a number of 32 bits. -/
def WritesSize (text : String) (size : Nat) : Prop :=
  ∃ digits, (text.toList = digits ∨ text.toList = '+' :: digits) ∧ digits ≠ [] ∧
    (∀ c ∈ digits, c.isDigit = true) ∧ Text.decimalValue digits = size ∧ size < 2 ^ 32

/-- Holds of the paths of a value that declares icons: one path, without a size, or the paths of an
object, each with the size that its key stands for, if it stands for one. -/
inductive DeclaresSized : Json → String → Option Nat → Prop where
  | path (path : String) : DeclaresSized (.string path) path none
  | bySize {members : Json.Members} {key path : String} {size : Option Nat}
      (hmember : (key, .string path) ∈ members) (hsize : ∀ n, size = some n ↔ WritesSize key n) :
      DeclaresSized (.object members) path size

end Asset

/-- Holds of the paths of icons that a manifest declares, as they are written, with the size if one is
declared. An icon for light and dark themes has the size of both. -/
inductive Manifest.DeclaresIcon (manifest : Manifest) : String → Option Nat → Prop where
  | icons {icons : Json} {path : String} {size : Option Nat}
      (hicons : manifest.get? "icons" = some icons) (hpath : Asset.DeclaresSized icons path size) :
      DeclaresIcon manifest path size
  | defaultIcon {key path : String} {action icons : Json} {size : Option Nat}
      (hkey : key ∈ ["browser_action", "page_action", "action"])
      (haction : manifest.get? key = some action)
      (hicons : action.get? "default_icon" = some icons)
      (hpath : Asset.DeclaresSized icons path size) : DeclaresIcon manifest path size
  | themeIcon {key variant path : String} {action entry : Json} {entries : List Json}
      {size : Option Nat} (hkey : key ∈ ["browser_action", "page_action", "action"])
      (haction : manifest.get? key = some action)
      (hentries : action.get? "theme_icons" = some (.array entries)) (hentry : entry ∈ entries)
      (hvariant : variant = "light" ∨ variant = "dark")
      (hpath : entry.get? variant = some (.string path))
      (hsize : ∀ n, size = some n ↔ entry.get? "size" = some (.ofNat n) ∧ n < 2 ^ 32) :
      DeclaresIcon manifest path size

namespace Asset

section Declarations

variable {path : String} {size : Option Nat}

theorem le_word32Max_iff {n : Nat} : n ≤ Text.word32Max ↔ n < 2 ^ 32 :=
  Nat.le_sub_one_iff_lt (by decide)

theorem natural?_eq_some_iff_writesSize {key : String} {n : Nat} :
    Text.natural? Text.word32Max key.toList = some n ↔ WritesSize key n := by
  simp only [Text.natural?_eq_some_iff, Text.digits?_eq_some_iff, WritesSize, le_word32Max_iff]

theorem themeIconSize?_eq_some_iff {entry : Json} {n : Nat} :
    themeIconSize? entry = some n ↔ entry.get? "size" = some (.ofNat n) ∧ n < 2 ^ 32 := by
  simp only [themeIconSize?, Option.filter_eq_some_iff, Option.bind_eq_some_iff,
    Json.nat?_eq_some_iff, exists_eq_right, decide_eq_true_eq, le_word32Max_iff]

theorem mem_declarationsOf {value : Json} :
    ⟨path, size⟩ ∈ declarationsOf value ↔ DeclaresSized value path size := by
  constructor
  · intro h
    cases value with
    | string declared =>
        obtain ⟨rfl, rfl⟩ := IconDeclaration.mk.inj (List.mem_singleton.mp h)
        exact .path path
    | object members =>
        obtain ⟨⟨key, value⟩, hmember, hpath⟩ := List.mem_filterMap.mp h
        obtain ⟨declared, hstring, heq⟩ := Option.map_eq_some_iff.mp hpath
        obtain ⟨rfl, rfl⟩ := IconDeclaration.mk.inj heq
        obtain rfl := Json.string?_eq_some.mp hstring
        exact .bySize hmember fun n => natural?_eq_some_iff_writesSize
    | _ => cases h
  · intro h
    cases h with
    | path => exact List.mem_singleton.mpr rfl
    | @bySize members key _ _ hmember hsize =>
        have hkey : size = Text.natural? Text.word32Max key.toList :=
          Option.ext fun n => (hsize n).trans natural?_eq_some_iff_writesSize.symm
        rw [hkey]
        exact List.mem_filterMap.mpr ⟨_, hmember, rfl⟩

theorem mem_themeIconDeclarations {entry : Json} :
    ⟨path, size⟩ ∈ themeIconDeclarations entry ↔
      (∃ variant, (variant = "light" ∨ variant = "dark") ∧
        entry.get? variant = some (.string path)) ∧ size = themeIconSize? entry := by
  simp only [themeIconDeclarations, List.mem_filterMap, Option.map_eq_some_iff,
    Option.bind_eq_some_iff, Json.string?_eq_some, IconDeclaration.mk.injEq]
  constructor
  · rintro ⟨variant, hvariant, _, ⟨_, hget, rfl⟩, rfl, rfl⟩
    exact ⟨⟨variant, by simpa using hvariant, hget⟩, rfl⟩
  · rintro ⟨⟨variant, hvariant, hget⟩, rfl⟩
    exact ⟨variant, by simpa using hvariant, path, ⟨_, hget, rfl⟩, rfl, rfl⟩

theorem mem_iconDeclarations {manifest : Manifest} :
    ⟨path, size⟩ ∈ iconDeclarations manifest ↔ manifest.DeclaresIcon path size := by
  simp only [iconDeclarations, actionDeclarations, List.mem_append, List.mem_flatMap, mem_getD_map,
    mem_declarationsOf, Json.mem_getD_items, mem_themeIconDeclarations]
  constructor
  · rintro (⟨icons, hicons, hpath⟩ | ⟨key, hkey, action, haction, hicons | hentries⟩)
    · exact .icons hicons hpath
    · obtain ⟨icons, hicons, hpath⟩ := hicons
      exact .defaultIcon hkey haction hicons hpath
    · obtain ⟨entry, ⟨entries, hentries, hentry⟩, ⟨variant, hvariant, hpath⟩, rfl⟩ := hentries
      exact .themeIcon hkey haction hentries hentry hvariant hpath fun n =>
        themeIconSize?_eq_some_iff
  · intro h
    cases h with
    | icons hicons hpath => exact .inl ⟨_, hicons, hpath⟩
    | defaultIcon hkey haction hicons hpath =>
        exact .inr ⟨_, hkey, _, haction, .inl ⟨_, hicons, hpath⟩⟩
    | @themeIcon _ _ _ _ entry _ _ hkey haction hentries hentry hvariant hpath hsize =>
        have hentrySize : size = themeIconSize? entry :=
          Option.ext fun n => (hsize n).trans themeIconSize?_eq_some_iff.symm
        exact .inr ⟨_, hkey, _, haction,
          .inr ⟨_, ⟨_, hentries, hentry⟩, ⟨_, hvariant, hpath⟩, hentrySize⟩⟩

end Declarations

section Gathering

variable {declarations : List IconDeclaration} {groups : List (String × List Nat)}

theorem mem_addSize {size : Option Nat} {sizes : List Nat} {n : Nat} :
    n ∈ addSize size sizes ↔ n ∈ sizes ∨ size = some n := by
  fun_cases addSize size sizes with
  | case1 added hadded =>
      have hmem := List.contains_iff_mem.mp hadded
      exact ⟨.inl, fun h => h.elim id fun heq => Option.some.inj heq ▸ hmem⟩
  | case2 added hadded => simp [eq_comm]
  | case3 => simp

theorem nodup_addSize {size : Option Nat} {sizes : List Nat} (h : sizes.Nodup) :
    (addSize size sizes).Nodup := by
  fun_cases addSize size sizes with
  | case1 added hadded => exact h
  | case2 added hadded =>
      have hnot : added ∉ sizes := fun hmem => hadded (List.contains_iff_mem.mpr hmem)
      exact List.nodup_append.mpr ⟨h, List.nodup_cons.mpr ⟨List.not_mem_nil, List.nodup_nil⟩, by
        rintro n hn _ hm rfl
        exact hnot (List.mem_singleton.mp hm ▸ hn)⟩
  | case3 => exact h

/-- Holds of what declarations are gathered to: their canonical paths, each once and in ascending
order, with the sizes that are declared for them, each once. -/
structure Gathers (declarations : List IconDeclaration) (groups : List (String × List Nat)) :
    Prop where
  ascending : groups.Pairwise fun a b => a.1 < b.1
  paths : ∀ path, path ∈ groups.map Prod.fst ↔
    ∃ declaration ∈ declarations, PackagePath.normalize declaration.path = path
  nodup : ∀ path, ((groups.lookup path).getD []).Nodup
  sizes : ∀ path n, n ∈ (groups.lookup path).getD [] ↔ ∃ declaration ∈ declarations,
    PackagePath.normalize declaration.path = path ∧ declaration.size = some n

theorem exists_mem_append_singleton {p : IconDeclaration → Prop} (declaration : IconDeclaration) :
    (∃ other ∈ declarations ++ [declaration], p other) ↔
      (∃ other ∈ declarations, p other) ∨ p declaration := by
  simp only [List.mem_append, List.mem_singleton, or_and_right, exists_or, exists_eq_left]

/-- One more declaration adds its path and its size, and leaves the other paths as they are. -/
theorem Gathers.update (h : Gathers declarations groups) (declaration : IconDeclaration) :
    Gathers (declarations ++ [declaration])
      (Ordered.update (PackagePath.normalize declaration.path) [] (addSize declaration.size)
        groups) where
  ascending := Ordered.pairwise_update h.ascending
  paths path := by
    rw [Ordered.mem_keys_update, h.paths, exists_mem_append_singleton, or_comm, @eq_comm _ path]
  nodup path := by
    by_cases hpath : path = PackagePath.normalize declaration.path
    · rw [hpath, Ordered.lookup_update_self h.ascending, Option.getD_some]
      exact nodup_addSize (h.nodup _)
    · rw [Ordered.lookup_update_of_ne hpath]
      exact h.nodup path
  sizes path n := by
    rw [exists_mem_append_singleton, ← h.sizes]
    by_cases hpath : path = PackagePath.normalize declaration.path
    · rw [hpath, Ordered.lookup_update_self h.ascending, Option.getD_some, mem_addSize]
      simp
    · rw [Ordered.lookup_update_of_ne hpath]
      simp [Ne.symm hpath]

/-- Gathering the declarations of a list leaves none out. -/
theorem gathers_group (declarations : List IconDeclaration) :
    Gathers declarations (group declarations) := by
  induction declarations using List.reverseRecOn with
  | nil => exact ⟨.nil, by simp [group], by simp [group], by simp [group]⟩
  | append_singleton declarations declaration ih =>
      rw [group, List.foldl_concat, ← group]
      exact ih.update declaration

end Gathering

section Icons

variable {manifest : Manifest} {path : String}

theorem pairwise_icons (manifest : Manifest) :
    (icons manifest).Pairwise fun a b => a.path < b.path :=
  List.pairwise_map.mpr (gathers_group (iconDeclarations manifest)).ascending

theorem mem_paths_icons :
    path ∈ (icons manifest).map IconReference.path ↔
      ∃ declared size, manifest.DeclaresIcon declared size ∧
        PackagePath.normalize declared = path := by
  have hpaths : (icons manifest).map IconReference.path =
      (group (iconDeclarations manifest)).map Prod.fst := by
    rw [icons, List.map_map]
    rfl
  rw [hpaths, (gathers_group _).paths]
  constructor
  · rintro ⟨⟨declared, size⟩, hmem, hpath⟩
    exact ⟨declared, size, mem_iconDeclarations.mp hmem, hpath⟩
  · rintro ⟨declared, size, hdeclared, hpath⟩
    exact ⟨⟨declared, size⟩, mem_iconDeclarations.mpr hdeclared, hpath⟩

/-- An icon is found among the groups by its path. -/
theorem lookup_group_of_mem_icons {icon : IconReference} (h : icon ∈ icons manifest) :
    (group (iconDeclarations manifest)).lookup icon.path = some icon.sizes := by
  have hascending := (gathers_group (iconDeclarations manifest)).ascending
  obtain ⟨entry, hentry, rfl⟩ := List.mem_map.mp h
  exact (Ordered.lookup_eq_some_iff_mem
    (List.pairwise_map.mpr (hascending.imp ne_of_lt))).mpr hentry

theorem mem_sizes_iff {icon : IconReference} (h : icon ∈ icons manifest) {n : Nat} :
    n ∈ icon.sizes ↔ ∃ declared, manifest.DeclaresIcon declared (some n) ∧
      PackagePath.normalize declared = icon.path := by
  have hsizes := (gathers_group (iconDeclarations manifest)).sizes icon.path n
  rw [lookup_group_of_mem_icons h, Option.getD_some] at hsizes
  rw [hsizes]
  constructor
  · rintro ⟨⟨declared, _⟩, hmem, hpath, rfl⟩
    exact ⟨declared, mem_iconDeclarations.mp hmem, hpath⟩
  · rintro ⟨declared, hdeclared, hpath⟩
    exact ⟨⟨declared, some n⟩, mem_iconDeclarations.mpr hdeclared, hpath, rfl⟩

/-- The icons of a manifest are in strictly ascending order of their paths, which are canonical, and
no size of an icon is there twice. A path is among them exactly if it is the canonical spelling of one
that the manifest declares, and it has exactly the sizes for which such a one is declared. -/
theorem icons_gathered (manifest : Manifest) :
    (icons manifest).Pairwise (fun a b => a.path < b.path) ∧
    (∀ icon ∈ icons manifest, PackagePath.normalize icon.path = icon.path ∧ icon.sizes.Nodup) ∧
    (∀ path, (∃ icon ∈ icons manifest, icon.path = path) ↔
      ∃ declared size, manifest.DeclaresIcon declared size ∧
        PackagePath.normalize declared = path) ∧
    ∀ path n, (∃ icon ∈ icons manifest, icon.path = path ∧ n ∈ icon.sizes) ↔
      ∃ declared, manifest.DeclaresIcon declared (some n) ∧
        PackagePath.normalize declared = path := by
  have hpaths : ∀ path, (∃ icon ∈ icons manifest, icon.path = path) ↔
      ∃ declared size, manifest.DeclaresIcon declared size ∧
        PackagePath.normalize declared = path := by
    intro path
    rw [← mem_paths_icons, List.mem_map]
  refine ⟨pairwise_icons manifest, fun icon hicon => ⟨?_, ?_⟩, hpaths, fun path n => ?_⟩
  · obtain ⟨declared, size, -, hpath⟩ := (hpaths icon.path).mp ⟨icon, hicon, rfl⟩
    rw [← hpath, PackagePath.normalize_normalize]
  · have hnodup := (gathers_group (iconDeclarations manifest)).nodup icon.path
    rwa [lookup_group_of_mem_icons hicon, Option.getD_some] at hnodup
  · constructor
    · rintro ⟨icon, hicon, rfl, hn⟩
      exact (mem_sizes_iff hicon).mp hn
    · rintro ⟨declared, hdeclared, hpath⟩
      obtain ⟨icon, hicon, rfl⟩ := (hpaths path).mpr ⟨declared, some n, hdeclared, hpath⟩
      exact ⟨icon, hicon, rfl, (mem_sizes_iff hicon).mpr ⟨declared, hdeclared, hpath⟩⟩

example :
    icons (Manifest.ofProperties [("browser_action", .object [("default_icon", .string "./a.png")]),
      ("icons", .object [("+16", .string "a.png"), ("big", .string "b.png"),
        ("016", .string "/a.png")])]) = [⟨"a.png", [16]⟩, ⟨"b.png", []⟩] := by
  decide +kernel

end Icons

end Asset
end ExtensionLint
