import ExtensionLint.Proofs.PackageBuild
import ExtensionLint.Proofs.PackagePath
import Mathlib.Data.List.DropRight

/-!
The listing of a package and what the package has. In a package that is built file by file, files and
the directories on their way have canonical paths, so asking for what is listed finds it. Only an added
directory that names the package itself is listed under a path that is not canonical, and asking for
that one is asking for a file without a name.
-/

namespace ExtensionLint

namespace PackagePath

section Canonical

variable {s front : List Char}

theorem normalize_front {path : String} (h : front <+: (normalize path).toList) :
    normalize (String.ofList front) = String.ofList front := by
  obtain ⟨hback, hslash, hdot⟩ := normalize_eq_self_iff.mp (normalize_normalize path)
  refine normalize_eq_self_iff.mpr ?_
  rw [String.toList_ofList]
  exact ⟨fun hmem => hback (h.subset hmem), fun hbegin => hslash (hbegin.trans h),
    fun hbegin => hdot (hbegin.trans h)⟩

/-- A slash at the end of a canonical path makes another one, unless the path is empty or the current
directory. -/
theorem normalize_append_slash (hs : normalize (String.ofList s) = String.ofList s) (hempty : s ≠ [])
    (hcurrent : s ≠ ['.']) :
    normalize (String.ofList (s ++ ['/'])) = String.ofList (s ++ ['/']) := by
  rw [normalize_eq_self_iff, String.toList_ofList] at hs ⊢
  obtain ⟨hback, hslash, hdot⟩ := hs
  refine ⟨?_, ?_, ?_⟩
  · simp [hback]
  · rw [List.prefix_concat_iff, not_or]
    exact ⟨fun hsame => hempty (by simpa using hsame), hslash⟩
  · rw [List.prefix_concat_iff, not_or]
    refine ⟨fun hsame => hcurrent ?_, hdot⟩
    have hsplit : ['.'] ++ ['/'] = s ++ ['/'] := hsame
    exact (List.append_cancel_right hsplit).symm

/-- What is removed at the end of a text are slashes. -/
theorem exists_eq_dropTrailing_append (s : List Char) :
    ∃ slashes, s = dropTrailing s ++ slashes ∧ ∀ c ∈ slashes, c = '/' := by
  refine ⟨s.rtakeWhile (· == '/'), List.rdropWhile_append_rtakeWhile.symm, fun c hc => ?_⟩
  have hslash := List.mem_rtakeWhile_imp hc
  exact eq_of_beq hslash

/-- Of a canonical path, the empty text or the current directory is left only if it was that. -/
theorem eq_of_dropTrailing_eq {path : String} (h : dropTrailing (normalize path).toList = front)
    (hfront : front = [] ∨ front = ['.']) : normalize path = String.ofList front := by
  obtain ⟨-, hslash, hdot⟩ := normalize_eq_self_iff.mp (normalize_normalize path)
  obtain ⟨slashes, hsplit, hslashes⟩ := exists_eq_dropTrailing_append (normalize path).toList
  rw [h] at hsplit
  cases slashes with
  | nil => rw [← hsplit.trans (List.append_nil _), String.ofList_toList]
  | cons c slashes =>
      obtain rfl := hslashes c List.mem_cons_self
      rcases hfront with rfl | rfl
      · exact absurd ⟨slashes, hsplit.symm⟩ hslash
      · exact absurd ⟨slashes, hsplit.symm⟩ hdot

end Canonical

/-- Holds of paths that name the package itself: the current directory, or nothing is left of them. -/
def NamesRoot (path : String) : Prop := normalize path = "" ∨ normalize path = "."

/-- The paths under which the package itself may be listed. -/
def rootPaths : List String := ["/", "./"]

/-- The listed path of an added directory. -/
def directoryPath (path : String) : String :=
  String.ofList (dropTrailing (normalize path).toList ++ ['/'])

theorem directoryPath_mem_rootPaths {path : String} (h : NamesRoot path) :
    directoryPath path ∈ rootPaths := by
  rcases h with h | h
  · rw [directoryPath, h]
    exact List.mem_cons_self
  · rw [directoryPath, h]
    exact List.mem_cons_of_mem _ List.mem_cons_self

theorem normalize_rootPaths : ∀ path ∈ rootPaths, normalize path = "" := by
  decide

theorem normalize_directoryPath {path : String} (h : ¬NamesRoot path) :
    normalize (directoryPath path) = directoryPath path := by
  have hfront : dropTrailing (normalize path).toList <+: (normalize path).toList :=
    List.rdropWhile_prefix _ _
  refine normalize_append_slash (normalize_front hfront) ?_ ?_
  · exact fun hempty => h (.inl (eq_of_dropTrailing_eq hempty (.inl rfl)))
  · exact fun hcurrent => h (.inr (eq_of_dropTrailing_eq hcurrent (.inr rfl)))

end PackagePath

namespace MemoryPackage

open PackagePath

/-- What an addition lists is canonical, unless it is a directory that names the package itself. -/
theorem Addition.normalize_of_mem_directories {addition : Addition} {directory : String}
    (h : directory ∈ addition.directories) :
    normalize directory = directory ∨
      directory ∈ rootPaths ∧ ∃ path, addition = .directory path ∧ NamesRoot path := by
  cases addition with
  | file path content =>
      obtain ⟨parent, hparent, rfl⟩ := List.mem_map.mp h
      obtain ⟨front, rest, hpath, rfl⟩ := mem_parents.mp hparent
      have hfront : front ++ ['/'] <+: (normalize path).toList := by
        rw [hpath]
        exact ⟨rest, by simp⟩
      exact .inl (normalize_front hfront)
  | directory path =>
      obtain rfl : directory = directoryPath path := List.mem_singleton.mp h
      by_cases hroot : NamesRoot path
      · exact .inr ⟨directoryPath_mem_rootPaths hroot, path, rfl, hroot⟩
      · exact .inl (normalize_directoryPath hroot)

section Listing

variable {additions : List Addition} {path : String}

theorem mem_paths {package : MemoryPackage} :
    path ∈ package.paths ↔ path ∈ package.files.map Prod.fst ∨ path ∈ package.directories := by
  rw [paths, (List.mergeSort_perm _ _).mem_iff, List.mem_append]

theorem has_iff_mem_paths (package : MemoryPackage) (query : String) :
    package.has query = true ↔ normalize query ∈ package.paths := by
  rw [has_iff, mem_paths, Ordered.mem_keys_iff]
  rfl

theorem mem_keys_build :
    path ∈ (build additions).files.map Prod.fst ↔
      ∃ added content, .file added content ∈ additions ∧ path = normalize added := by
  induction additions using List.reverseRecOn with
  | nil => simp [build, empty]
  | append_singleton additions addition ih =>
      rw [build_append_singleton]
      cases addition with
      | file other added =>
          have hkeys : path ∈ ((Addition.file other added).apply (build additions)).files.map Prod.fst ↔
              path = normalize other ∨ path ∈ (build additions).files.map Prod.fst :=
            Ordered.mem_keys_update
          rw [hkeys, ih]
          simp [or_and_right, exists_or, or_comm]
      | directory other =>
          have hkeys : ((Addition.directory other).apply (build additions)).files =
              (build additions).files := rfl
          rw [hkeys, ih]
          simp

/-- Every listed path is canonical, but for those of directories that name the package itself. -/
theorem normalize_of_mem_paths (h : path ∈ (build additions).paths) :
    normalize path = path ∨
      path ∈ rootPaths ∧ ∃ added, .directory added ∈ additions ∧ NamesRoot added := by
  rcases mem_paths.mp h with hfile | hdirectory
  · obtain ⟨added, content, -, rfl⟩ := mem_keys_build.mp hfile
    exact .inl (normalize_normalize added)
  · obtain ⟨addition, hmem, hlisted⟩ := mem_directories_build.mp hdirectory
    rcases addition.normalize_of_mem_directories hlisted with hcanonical | ⟨hroot, added, rfl, hnames⟩
    · exact .inl hcanonical
    · exact .inr ⟨hroot, added, hmem, hnames⟩

/-- The empty path is listed only for a file. -/
theorem empty_mem_paths_iff :
    "" ∈ (build additions).paths ↔
      ∃ path content, .file path content ∈ additions ∧ normalize path = "" := by
  have hdirectory : "" ∉ (build additions).directories := fun h =>
    absurd (endsWith_of_mem_directories h) (by decide)
  rw [mem_paths, or_iff_left hdirectory, mem_keys_build]
  simp only [eq_comm]

theorem directoryPath_mem_paths (h : .directory path ∈ additions) :
    directoryPath path ∈ (build additions).paths :=
  mem_paths.mpr (.inr (mem_directories_build.mpr ⟨_, h, List.mem_singleton_self _⟩))

end Listing

/-- A package has the paths whose canonical spellings it lists. It has all that it lists exactly if no
directory was added that names the package itself, or else a file without a name was added. Only the
paths of such directories are listed and missing. -/
theorem listing_agrees_with_existence (additions : List Addition) :
    let package := build additions
    (∀ query, package.has query = true ↔ normalize query ∈ package.paths) ∧
      ((∀ path ∈ package.paths, package.has path = true) ↔
        (∀ path, .directory path ∈ additions → ¬NamesRoot path) ∨
          ∃ path content, .file path content ∈ additions ∧ normalize path = "") ∧
      ∀ path ∈ package.paths, package.has path = false → path ∈ rootPaths := by
  intro package
  have hquery := has_iff_mem_paths package
  refine ⟨hquery, ⟨fun hall => ?_, fun hadded path hpath => ?_⟩, fun path hpath hmissing => ?_⟩
  · by_cases hroot : ∀ path, .directory path ∈ additions → ¬NamesRoot path
    · exact .inl hroot
    · simp only [not_forall, not_not] at hroot
      obtain ⟨path, hmem, hnames⟩ := hroot
      have hfound := (hquery _).mp (hall _ (directoryPath_mem_paths hmem))
      rw [normalize_rootPaths _ (directoryPath_mem_rootPaths hnames)] at hfound
      exact .inr (empty_mem_paths_iff.mp hfound)
  · rw [hquery]
    rcases normalize_of_mem_paths hpath with hcanonical | ⟨hroot, directory, hmem, hnames⟩
    · exact hcanonical.symm ▸ hpath
    · rw [normalize_rootPaths path hroot]
      exact empty_mem_paths_iff.mpr
        (hadded.resolve_left fun hnone => hnone directory hmem hnames)
  · rcases normalize_of_mem_paths hpath with hcanonical | ⟨hroot, -⟩
    · have hfound := (hquery path).mpr (hcanonical.symm ▸ hpath)
      rw [hfound] at hmissing
      cases hmissing
    · exact hroot

/-- The current directory, added as a directory, is listed and cannot be found. -/
theorem listed_root_not_found :
    let package := build [.directory "."]
    "./" ∈ package.paths ∧ package.has "./" = false :=
  ⟨mem_paths.mpr (.inr (by decide)), by decide⟩

end MemoryPackage
end ExtensionLint
