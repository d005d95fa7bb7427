import ExtensionLint.Proofs.FileTree
import ExtensionLint.Proofs.PackageBuild
import ExtensionLint.Proofs.PathExtensions
import ExtensionLint.Proofs.Run
import ExtensionLint.Proofs.Scheduling

/-!
What the checks of images find. A path that a package has and that ends in an extension of images is
that of a stored file, so what is decoded is always stored bytes. From there on the findings are those
of the decoded geometry and format alone, and there are none exactly if these are in order.
-/

namespace ExtensionLint

open PackagePath (HasExtension PlainExtension)

/-- Holds of the bytes that a package stores under a path with one of some extensions. -/
structure MemoryPackage.StoresImage (package : MemoryPackage) (extensions : List String)
    (path : String) (bytes : Bytes) : Prop where
  stored : package.files.lookup (PackagePath.normalize path) = some bytes
  extension : ∃ extension ∈ extensions, HasExtension path extension

/-- What holds of some stored bytes of a path holds of those that are known to be stored. -/
theorem MemoryPackage.StoresImage.exists_iff {package : MemoryPackage} {extensions : List String}
    {path : String} {bytes : Bytes} {holds : Bytes → Prop}
    (h : package.StoresImage extensions path bytes) :
    (∃ bytes, package.StoresImage extensions path bytes ∧ holds bytes) ↔ holds bytes := by
  constructor
  · rintro ⟨other, hother, hholds⟩
    obtain rfl := Option.some.inj (h.stored.symm.trans hother.stored)
    exact hholds
  · exact fun hholds => ⟨bytes, h, hholds⟩

theorem distinctSubjects_of_length_le_one {findings : List Diagnostic} (h : findings.length ≤ 1) :
    DistinctSubjects findings := by
  rcases Nat.le_one_iff_eq_zero_or_eq_one.mp h with hnone | hone
  · rw [List.length_eq_zero_iff.mp hnone]
    exact List.Pairwise.nil
  · obtain ⟨diagnostic, rfl⟩ := List.length_eq_one_iff.mp hone
    exact List.pairwise_singleton _ diagnostic

namespace Asset

def themeExtensions : List String := themeTypes.map Prod.fst

theorem plain_of_mem_iconExtensions : ∀ extension ∈ iconExtensions, PlainExtension extension := by
  decide

theorem plain_of_mem_themeExtensions :
    ∀ extension ∈ themeExtensions, PlainExtension extension := by
  decide

section Extensions

variable {path : String}

theorem hasIconExtension_iff :
    hasIconExtension path = true ↔ ∃ extension ∈ iconExtensions, HasExtension path extension := by
  rw [hasIconExtension, Option.any_eq_true]
  simp only [List.contains_iff_mem]
  constructor
  · rintro ⟨extension, hextension, hmem⟩
    have hplain := plain_of_mem_iconExtensions extension hmem
    exact ⟨extension, hmem, (PackagePath.extension?_eq_some_iff hplain).mp hextension⟩
  · rintro ⟨extension, hmem, hextension⟩
    have hplain := plain_of_mem_iconExtensions extension hmem
    exact ⟨extension, (PackagePath.extension?_eq_some_iff hplain).mpr hextension, hmem⟩

theorem expectedMime?_eq_some_iff {mime : String} :
    expectedMime? path = some mime ↔
      ∃ extension, (extension, mime) ∈ themeTypes ∧ HasExtension path extension := by
  have hlookup : ∀ extension,
      themeTypes.lookup extension = some mime ↔ (extension, mime) ∈ themeTypes :=
    fun extension => Ordered.lookup_eq_some_iff_mem (by decide)
  rw [expectedMime?, Option.bind_eq_some_iff]
  simp only [hlookup]
  constructor
  · rintro ⟨extension, hextension, hmem⟩
    have hplain := plain_of_mem_themeExtensions extension (List.mem_map_of_mem hmem)
    exact ⟨extension, hmem, (PackagePath.extension?_eq_some_iff hplain).mp hextension⟩
  · rintro ⟨extension, hmem, hextension⟩
    have hplain := plain_of_mem_themeExtensions extension (List.mem_map_of_mem hmem)
    exact ⟨extension, (PackagePath.extension?_eq_some_iff hplain).mpr hextension, hmem⟩

theorem exists_expectedMime? (h : ∃ extension ∈ themeExtensions, HasExtension path extension) :
    ∃ expected, expectedMime? path = some expected := by
  obtain ⟨extension, hmem, hends⟩ := h
  obtain ⟨⟨_, expected⟩, htype, rfl⟩ := List.mem_map.mp hmem
  exact ⟨expected, expectedMime?_eq_some_iff.mpr ⟨_, htype, hends⟩⟩

end Extensions

namespace Checker

section Findings

variable (checker : Checker) (path : String) (info : ImageInfo)

theorem codes_shapeFindings :
    (checker.shapeFindings path info).map Diagnostic.code =
      if info.width = info.height then [] else [.iconNotSquare] := by
  rw [shapeFindings, ImageInfo.isSquare]
  by_cases hsquare : info.width = info.height
  · simp [hsquare]
  · cases hsvg : info.isSvg <;> simp [hsquare, Diagnostic.withSeverity]

theorem mismatches_eq_nil_iff {sizes : List Nat} :
    mismatches sizes info = [] ↔ ∀ size ∈ sizes, size = info.width := by
  rw [mismatches, ← List.length_eq_zero_iff, (List.mergeSort_perm _ _).length_eq,
    List.length_eq_zero_iff, List.filter_eq_nil_iff]
  simp

theorem codes_sizeFindings (icon : IconReference) :
    (checker.sizeFindings icon info).map Diagnostic.code =
      if info.isSvg = true ∨ ∀ size ∈ icon.sizes, size = info.width then []
      else [.iconSizeInvalid] := by
  fun_cases sizeFindings checker icon info with
  | case1 hsvg => rw [if_pos (.inl hsvg), List.map_nil]
  | case2 hsvg hnone => rw [if_pos (.inr ((mismatches_eq_nil_iff info).mp hnone)), List.map_nil]
  | case3 hsvg hsome =>
      rw [if_neg (not_or.mpr ⟨hsvg, fun h => hsome ((mismatches_eq_nil_iff info).mpr h)⟩)]
      rfl

theorem codes_mimeFindings {extension expected : String} (mime : String)
    (hexpected : (extension, expected) ∈ themeTypes) :
    (checker.mimeFindings path expected mime).map Diagnostic.code =
      if mime = expected then []
      else if mime ∈ themeTypes.map Prod.snd then [.manifestThemeImageMimeMismatch]
      else [.manifestThemeImageWrongMime] := by
  have hany : themeTypes.any (fun entry => entry.2 == mime) =
      decide (mime ∈ themeTypes.map Prod.snd) := by
    rw [Bool.eq_iff_iff, List.any_eq_true, decide_eq_true_eq, List.mem_map]
    exact exists_congr fun entry => and_congr_right fun _ => beq_iff_eq
  by_cases hmime : mime = expected
  · subst hmime
    simp [mimeFindings, hany, List.mem_map_of_mem (f := Prod.snd) hexpected]
  · by_cases hmem : mime ∈ themeTypes.map Prod.snd <;>
      simp [mimeFindings, hany, hmime, hmem, -List.mem_map]

end Findings

/-- The codes about an icon with an extension of icons, by what is decoded. -/
def decodedIconCodes (sizes : List Nat) : Except DecodeError ImageInfo → List Code
  | .error _ => [.corruptIconFile]
  | .ok info => (if info.width = info.height then [] else [.iconNotSquare]) ++
      if info.isSvg = true ∨ ∀ size ∈ sizes, size = info.width then [] else [.iconSizeInvalid]

/-- The codes about a theme image whose extension implies a media type, by what is decoded. -/
def decodedThemeCodes (expected : String) : Except DecodeError ImageInfo → List Code
  | .error _ => [.manifestThemeImageCorrupted]
  | .ok info => if info.mime = expected then []
      else if info.mime ∈ themeTypes.map Prod.snd then [.manifestThemeImageMimeMismatch]
      else [.manifestThemeImageWrongMime]

section Decoded

variable {sizes : List Nat} {expected : String} {decoded : Except DecodeError ImageInfo}

theorem corruptIconFile_mem_decodedIconCodes :
    .corruptIconFile ∈ decodedIconCodes sizes decoded ↔ ∃ cause, decoded = .error cause := by
  cases decoded with
  | error cause => simp [decodedIconCodes]
  | ok info => simp [decodedIconCodes]

theorem iconSizeInvalid_mem_decodedIconCodes :
    .iconSizeInvalid ∈ decodedIconCodes sizes decoded ↔
      ∃ info, decoded = .ok info ∧ info.isSvg = false ∧ ∃ size ∈ sizes, size ≠ info.width := by
  cases decoded with
  | error cause => simp [decodedIconCodes]
  | ok info => simp [decodedIconCodes]

theorem decodedIconCodes_eq_nil_iff :
    decodedIconCodes sizes decoded = [] ↔
      ∃ info, decoded = .ok info ∧ info.width = info.height ∧
        (info.isSvg = true ∨ ∀ size ∈ sizes, size = info.width) := by
  cases decoded with
  | error cause => simp [decodedIconCodes]
  | ok info => cases hsvg : info.isSvg <;> simp [decodedIconCodes, hsvg]

theorem corrupted_mem_decodedThemeCodes :
    .manifestThemeImageCorrupted ∈ decodedThemeCodes expected decoded ↔
      ∃ cause, decoded = .error cause := by
  fun_cases decodedThemeCodes expected decoded <;> simp

theorem decodedThemeCodes_eq_nil_iff :
    decodedThemeCodes expected decoded = [] ↔ ∃ info, decoded = .ok info ∧ info.mime = expected := by
  fun_cases decodedThemeCodes expected decoded <;> simp_all

theorem length_decodedThemeCodes : (decodedThemeCodes expected decoded).length ≤ 1 := by
  fun_cases decodedThemeCodes expected decoded <;> simp

end Decoded

section Stored

variable {checker : Checker} {additions : List MemoryPackage.Addition} {path : String} {bytes : Bytes}
  (hpackage : checker.package = (MemoryPackage.build additions).toPackage)
include hpackage

/-- What is stored is there, and is what is decoded. -/
theorem decode_of_stored
    (hstored : (MemoryPackage.build additions).files.lookup (PackagePath.normalize path) = some bytes) :
    checker.package.has path = true ∧ checker.decode path = checker.decoder.read bytes := by
  have hcontent : (MemoryPackage.build additions).toPackage.content? path = some bytes := hstored
  refine ⟨?_, ?_⟩
  · rw [hpackage]
    exact (MemoryPackage.has_iff _).mpr (.inl ⟨bytes, hstored⟩)
  · rw [decode, hpackage, Package.read, hcontent]

/-- A path that is there and ends in an extension of images is that of a stored file. -/
theorem exists_storesImage {extensions : List String}
    (hplain : ∀ extension ∈ extensions, PlainExtension extension)
    (hhas : checker.package.has path = true)
    (hextension : ∃ extension ∈ extensions, HasExtension path extension) :
    ∃ bytes, (MemoryPackage.build additions).StoresImage extensions path bytes := by
  obtain ⟨extension, hmem, hends⟩ := hextension
  rw [hpackage] at hhas
  obtain ⟨bytes, hstored⟩ :=
    MemoryPackage.exists_content_of_has hhas (hends.not_endsWith (hplain extension hmem))
  exact ⟨bytes, hstored, extension, hmem, hends⟩

theorem codes_checkIcon_of_storesImage {icon : IconReference}
    (h : (MemoryPackage.build additions).StoresImage iconExtensions icon.path bytes) :
    (checker.checkIcon icon).map Diagnostic.code =
      decodedIconCodes icon.sizes (checker.decoder.read bytes) := by
  obtain ⟨hhas, hdecode⟩ := decode_of_stored hpackage h.stored
  simp only [checkIcon, hhas, hasIconExtension_iff.mpr h.extension, hdecode, Bool.not_true,
    Bool.false_eq_true, if_false]
  cases checker.decoder.read bytes with
  | error cause => rfl
  | ok info =>
      simp only [List.map_append, codes_shapeFindings, codes_sizeFindings, decodedIconCodes]

theorem codes_checkIcon_of_not_storesImage {icon : IconReference}
    (h : ¬∃ bytes, (MemoryPackage.build additions).StoresImage iconExtensions icon.path bytes) :
    (checker.checkIcon icon).map Diagnostic.code ∈
      [[Code.manifestIconNotFound], [.wrongIconExtension]] := by
  cases hhas : checker.package.has icon.path with
  | false => simp [checkIcon_of_not_has hhas]
  | true =>
      have hextension : hasIconExtension icon.path = false := by
        refine Bool.of_not_eq_true fun hextension => h ?_
        exact exists_storesImage hpackage plain_of_mem_iconExtensions hhas
          (hasIconExtension_iff.mp hextension)
      simp [checkIcon, hhas, hextension]

/-- What does not hold of an icon that is missing or has another extension holds of the codes about an
icon if it holds of those about what is stored and decoded. -/
theorem holds_codes_checkIcon_iff (icon : IconReference) (holds : List Code → Prop)
    (hother : ∀ codes ∈ [[Code.manifestIconNotFound], [.wrongIconExtension]], ¬holds codes) :
    holds ((checker.checkIcon icon).map Diagnostic.code) ↔
      ∃ bytes, (MemoryPackage.build additions).StoresImage iconExtensions icon.path bytes ∧
        holds (decodedIconCodes icon.sizes (checker.decoder.read bytes)) := by
  by_cases h : ∃ bytes, (MemoryPackage.build additions).StoresImage iconExtensions icon.path bytes
  · obtain ⟨bytes, hbytes⟩ := h
    rw [hbytes.exists_iff, codes_checkIcon_of_storesImage hpackage hbytes]
  · constructor
    · exact fun hholds => absurd hholds (hother _ (codes_checkIcon_of_not_storesImage hpackage h))
    · exact fun ⟨bytes, hbytes, _⟩ => absurd ⟨bytes, hbytes⟩ h

theorem codes_checkThemeImage_of_storesImage {image : ThemeImageReference} {expected : String}
    (hstored : (MemoryPackage.build additions).files.lookup (PackagePath.normalize image.path) =
      some bytes)
    (hexpected : expectedMime? image.path = some expected) :
    (checker.checkThemeImage image).map Diagnostic.code =
      decodedThemeCodes expected (checker.decoder.read bytes) := by
  obtain ⟨hhas, hdecode⟩ := decode_of_stored hpackage hstored
  obtain ⟨extension, htype, -⟩ := expectedMime?_eq_some_iff.mp hexpected
  simp only [checkThemeImage, hhas, hexpected, hdecode, Bool.not_true, Bool.false_eq_true, if_false]
  cases checker.decoder.read bytes with
  | error cause => rfl
  | ok info => exact checker.codes_mimeFindings _ info.mime htype

theorem codes_checkThemeImage_of_not_storesImage {image : ThemeImageReference}
    (h : ¬∃ bytes, (MemoryPackage.build additions).StoresImage themeExtensions image.path bytes) :
    (checker.checkThemeImage image).map Diagnostic.code ∈
      [[Code.manifestThemeImageNotFound], [.manifestThemeImageWrongExt]] := by
  cases hhas : checker.package.has image.path with
  | false => simp [checkThemeImage_of_not_has hhas]
  | true =>
      have hextension : expectedMime? image.path = none := by
        rw [Option.eq_none_iff_forall_ne_some]
        intro mime hmime
        obtain ⟨extension, htype, hends⟩ := expectedMime?_eq_some_iff.mp hmime
        exact h (exists_storesImage hpackage plain_of_mem_themeExtensions hhas
          ⟨extension, List.mem_map_of_mem htype, hends⟩)
      simp [checkThemeImage, hhas, hextension]

/-- What does not hold of a theme image that is missing or has another extension holds of the codes about
a theme image if it holds of those about what is stored and decoded. -/
theorem holds_codes_checkThemeImage_iff (image : ThemeImageReference) (holds : List Code → Prop)
    (hother : ∀ codes ∈ [[Code.manifestThemeImageNotFound], [.manifestThemeImageWrongExt]],
      ¬holds codes) :
    holds ((checker.checkThemeImage image).map Diagnostic.code) ↔
      ∃ bytes, (MemoryPackage.build additions).StoresImage themeExtensions image.path bytes ∧
        ∃ expected, expectedMime? image.path = some expected ∧
          holds (decodedThemeCodes expected (checker.decoder.read bytes)) := by
  by_cases h : ∃ bytes, (MemoryPackage.build additions).StoresImage themeExtensions image.path bytes
  · obtain ⟨bytes, hbytes⟩ := h
    obtain ⟨expected, hexpected⟩ := exists_expectedMime? hbytes.extension
    rw [hbytes.exists_iff, codes_checkThemeImage_of_storesImage hpackage hbytes.stored hexpected]
    simp [hexpected]
  · constructor
    · exact fun hholds =>
        absurd hholds (hother _ (codes_checkThemeImage_of_not_storesImage hpackage h))
    · exact fun ⟨bytes, hbytes, _⟩ => absurd ⟨bytes, hbytes⟩ h

theorem length_checkThemeImage (image : ThemeImageReference) :
    (checker.checkThemeImage image).length ≤ 1 := by
  rw [← List.length_map (f := Diagnostic.code)]
  by_contra hmany
  obtain ⟨bytes, -, expected, -, hlength⟩ := (holds_codes_checkThemeImage_iff hpackage image
    (fun codes => ¬codes.length ≤ 1) (by decide)).mp hmany
  exact hlength length_decodedThemeCodes

end Stored

theorem entries_checkIcons_singleton (checker : Checker) (icon : IconReference) :
    (checker.checkIcons [icon] .empty).entries = checker.checkIcon icon := by
  rw [checkIcons_eq, List.flatMap_singleton, Log.entries_addAllNew (checker.distinct_checkIcon icon)]
  simp [Log.empty, Log.has]

theorem entries_checkThemeImages_singleton {checker : Checker} {image : ThemeImageReference}
    (hlength : (checker.checkThemeImage image).length ≤ 1) :
    (checker.checkThemeImages [image] .empty).entries = checker.checkThemeImage image := by
  rw [checkThemeImages_eq, List.flatMap_singleton,
    Log.entries_addAllNew (distinctSubjects_of_length_le_one hlength)]
  simp [Log.empty, Log.has]

/-- What is found about one icon and about one image of a theme, in a package built file by file.

An image is reported as corrupt exactly if a file is stored under its path, the path has an extension of
such images, and the stored bytes cannot be decoded. Nothing is found about an icon exactly if what is
stored decodes to a square and is a vector image or as wide as every declared size; a vector image never
has a wrong size. Nothing is found about a theme image exactly if what is stored decodes to the format
that the extension implies, and otherwise there is one finding. -/
theorem image_verdicts (additions : List MemoryPackage.Addition) (decoder : ImageDecoder)
    (catalog : Catalog) (icon : IconReference) (image : ThemeImageReference) :
    let built := MemoryPackage.build additions
    let checker : Checker := ⟨built.toPackage, decoder, catalog⟩
    let iconFindings := (checker.checkIcons [icon] .empty).entries
    let imageFindings := (checker.checkThemeImages [image] .empty).entries
    (.corruptIconFile ∈ iconFindings.map Diagnostic.code ↔
      ∃ bytes, built.StoresImage iconExtensions icon.path bytes ∧
        ∃ cause, decoder.read bytes = .error cause) ∧
    (.manifestThemeImageCorrupted ∈ imageFindings.map Diagnostic.code ↔
      ∃ bytes, built.StoresImage themeExtensions image.path bytes ∧
        ∃ cause, decoder.read bytes = .error cause) ∧
    (iconFindings = [] ↔
      ∃ bytes, built.StoresImage iconExtensions icon.path bytes ∧
        ∃ info, decoder.read bytes = .ok info ∧ info.width = info.height ∧
          (info.isSvg = true ∨ ∀ size ∈ icon.sizes, size = info.width)) ∧
    (.iconSizeInvalid ∈ iconFindings.map Diagnostic.code ↔
      ∃ bytes, built.StoresImage iconExtensions icon.path bytes ∧
        ∃ info, decoder.read bytes = .ok info ∧ info.isSvg = false ∧
          ∃ size ∈ icon.sizes, size ≠ info.width) ∧
    (imageFindings = [] ↔
      ∃ bytes, built.StoresImage themeExtensions image.path bytes ∧
        ∃ info, decoder.read bytes = .ok info ∧ ∃ extension,
          (extension, info.mime) ∈ themeTypes ∧ HasExtension image.path extension) ∧
    (imageFindings = [] ∨ ∃ diagnostic, imageFindings = [diagnostic]) := by
  intro built checker iconFindings imageFindings
  have hpackage : checker.package = built.toPackage := rfl
  have hlength := length_checkThemeImage hpackage image
  have hicon : iconFindings = checker.checkIcon icon := checker.entries_checkIcons_singleton icon
  have himage : imageFindings = checker.checkThemeImage image :=
    entries_checkThemeImages_singleton hlength
  rw [hicon, himage]
  refine ⟨?_, ?_, ?_, ?_, ?_, ?_⟩
  · rw [holds_codes_checkIcon_iff hpackage icon (.corruptIconFile ∈ ·) (by decide)]
    simp only [corruptIconFile_mem_decodedIconCodes]
    rfl
  · rw [holds_codes_checkThemeImage_iff hpackage image (.manifestThemeImageCorrupted ∈ ·) (by decide)]
    refine exists_congr fun bytes => and_congr_right fun hbytes => ?_
    obtain ⟨expected, hexpected⟩ := exists_expectedMime? hbytes.extension
    simp [hexpected, corrupted_mem_decodedThemeCodes, checker]
  · rw [← List.map_eq_nil_iff (f := Diagnostic.code),
      holds_codes_checkIcon_iff hpackage icon (· = []) (by decide)]
    simp only [decodedIconCodes_eq_nil_iff]
    rfl
  · rw [holds_codes_checkIcon_iff hpackage icon (.iconSizeInvalid ∈ ·) (by decide)]
    simp only [iconSizeInvalid_mem_decodedIconCodes]
    rfl
  · rw [← List.map_eq_nil_iff (f := Diagnostic.code),
      holds_codes_checkThemeImage_iff hpackage image (· = []) (by decide)]
    simp only [decodedThemeCodes_eq_nil_iff, ← expectedMime?_eq_some_iff]
    refine exists_congr fun bytes => and_congr_right fun _ => ?_
    constructor
    · rintro ⟨_, hexpected, info, hread, rfl⟩
      exact ⟨info, hread, hexpected⟩
    · rintro ⟨info, hread, hexpected⟩
      exact ⟨_, hexpected, info, hread, rfl⟩
  · rw [← List.length_eq_zero_iff, ← List.length_eq_one_iff]
    omega

end Checker
end Asset
end ExtensionLint
