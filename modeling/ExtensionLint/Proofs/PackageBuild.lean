import ExtensionLint.Package.Memory
import ExtensionLint.Proofs.Members
import Mathlib.Data.List.Induction

/-!
Building a package by adding one file or directory after another. What the package then holds can be
said of the additions alone: its directories are those that came with them, and the file of a path
is the one that was added there. Both are kept in ascending order.
-/

namespace ExtensionLint

namespace Ordered

theorem pairwise_insert {text : String} {texts : List String} (h : texts.Pairwise (· < ·)) :
    (insert text texts).Pairwise (· < ·) := by
  induction texts with
  | nil => exact List.pairwise_singleton _ _
  | cons other texts ih =>
      obtain ⟨hbefore, hrest⟩ := List.pairwise_cons.mp h
      rw [insert]
      split
      · next hless =>
          refine List.pairwise_cons.mpr ⟨fun later hlater => ?_, h⟩
          rcases List.mem_cons.mp hlater with rfl | hlater
          · exact hless
          · exact String.lt_trans hless (hbefore later hlater)
      · next hless =>
          split
          · exact h
          · next hne =>
              refine List.pairwise_cons.mpr ⟨fun later hlater => ?_, ih hrest⟩
              rcases mem_insert.mp hlater with rfl | hlater
              · exact lt_of_le_of_ne (not_lt.mp hless) (Ne.symm hne)
              · exact hbefore later hlater

theorem pairwise_foldl_insert (texts : List String) {made : List String}
    (h : made.Pairwise (· < ·)) :
    (texts.foldl (fun made text => insert text made) made).Pairwise (· < ·) := by
  induction texts generalizing made with
  | nil => exact h
  | cons text texts ih => exact ih (pairwise_insert h)

theorem pairwise_ofList (texts : List String) : (ofList texts).Pairwise (· < ·) :=
  pairwise_foldl_insert texts List.Pairwise.nil

end Ordered

namespace PackagePath

/-- The directories on the way of a path end at its slashes. -/
theorem mem_parents {s parent : List Char} :
    parent ∈ parents s ↔ ∃ front rest, s = front ++ '/' :: rest ∧ parent = front ++ ['/'] := by
  induction s generalizing parent with
  | nil => simp [parents]
  | cons c s ih =>
      have hbelow : parent ∈ (parents s).map (c :: ·) ↔
          ∃ front rest, s = front ++ '/' :: rest ∧ parent = c :: front ++ ['/'] := by
        rw [List.mem_map]
        constructor
        · rintro ⟨below, hmem, rfl⟩
          obtain ⟨front, rest, hs, rfl⟩ := ih.mp hmem
          exact ⟨front, rest, hs, rfl⟩
        · rintro ⟨front, rest, hs, rfl⟩
          exact ⟨front ++ ['/'], ih.mpr ⟨front, rest, hs, rfl⟩, rfl⟩
      have hmem : parent ∈ parents (c :: s) ↔
          c = '/' ∧ parent = [c] ∨ parent ∈ (parents s).map (c :: ·) := by
        rw [parents]
        by_cases hslash : c = '/' <;> simp [hslash]
      rw [hmem, hbelow]
      constructor
      · rintro (⟨rfl, rfl⟩ | ⟨front, rest, rfl, rfl⟩)
        · exact ⟨[], s, rfl, rfl⟩
        · exact ⟨c :: front, rest, rfl, rfl⟩
      · rintro ⟨front, rest, hs, rfl⟩
        cases front with
        | nil =>
            obtain ⟨rfl, -⟩ := List.cons_eq_cons.mp hs
            exact .inl ⟨rfl, rfl⟩
        | cons d front =>
            obtain ⟨rfl, rfl⟩ := List.cons_eq_cons.mp hs
            exact .inr ⟨front, rest, rfl, rfl⟩

theorem dropTrailing_eq_self {s : List Char} (h : Text.endsWith ['/'] s = false) :
    dropTrailing s = s := by
  rw [dropTrailing]
  rw [Text.endsWith] at h
  cases hs : s.reverse with
  | nil =>
      rw [List.reverse_eq_nil_iff.mp hs]
      rfl
  | cons c rest =>
      rw [hs] at h
      have hc : ¬(c == '/') = true := by
        intro hslash
        rw [eq_of_beq hslash] at h
        simp at h
      have hkeep : (c :: rest).dropWhile (· == '/') = c :: rest := List.dropWhile_cons_of_neg hc
      rw [hkeep, ← hs, List.reverse_reverse]

end PackagePath

namespace MemoryPackage

/-- A file or directory to add to a package. -/
inductive Addition where
  | file (path : String) (content : Bytes)
  | directory (path : String)
  deriving DecidableEq, Repr

namespace Addition

def apply (package : MemoryPackage) : Addition → MemoryPackage
  | file path content => package.withFile path content
  | directory path => package.withDirectory path

/-- The path of an added file and its contents. -/
def file? : Addition → Option (String × Bytes)
  | file path content => some (PackagePath.normalize path, content)
  | directory _ => none

/-- The directories that come with an addition. -/
def directories : Addition → List String
  | file path _ => (PackagePath.parents (PackagePath.normalize path).toList).map String.ofList
  | directory path =>
      [String.ofList (PackagePath.dropTrailing (PackagePath.normalize path).toList ++ ['/'])]

end Addition

/-- The package of additions made one after another. -/
def build (additions : List Addition) : MemoryPackage := additions.foldl Addition.apply empty

theorem build_append_singleton (additions : List Addition) (addition : Addition) :
    build (additions ++ [addition]) = addition.apply (build additions) := by
  rw [build, List.foldl_concat, build]

/-- Files and directories are kept in ascending order. -/
structure Ascending (package : MemoryPackage) : Prop where
  files : package.files.Pairwise fun a b => a.1 < b.1
  directories : package.directories.Pairwise (· < ·)

theorem directories_apply (package : MemoryPackage) (addition : Addition) :
    (addition.apply package).directories = addition.directories.foldl
      (fun made directory => Ordered.insert directory made) package.directories := by
  cases addition with
  | file path content => rw [Addition.apply, withFile, Addition.directories, List.foldl_map]
  | directory path => rfl

theorem Ascending.apply {package : MemoryPackage} (h : package.Ascending) (addition : Addition) :
    (addition.apply package).Ascending := by
  constructor
  · cases addition with
    | file path content => exact Ordered.pairwise_put h.files
    | directory path => exact h.files
  · rw [directories_apply]
    exact Ordered.pairwise_foldl_insert _ h.directories

theorem ascending_build (additions : List Addition) : (build additions).Ascending := by
  induction additions using List.reverseRecOn with
  | nil => exact ⟨List.Pairwise.nil, List.Pairwise.nil⟩
  | append_singleton additions addition ih =>
      rw [build_append_singleton]
      exact ih.apply addition

theorem pairwise_paths (package : MemoryPackage) : package.paths.Pairwise (· ≤ ·) := by
  have hsorted : package.paths.Pairwise fun a b => decide (a ≤ b) = true := by
    apply List.pairwise_mergeSort
    · intro a b c hab hbc
      exact decide_eq_true (String.le_trans (of_decide_eq_true hab) (of_decide_eq_true hbc))
    · intro a b
      simpa using String.le_total a b
  exact hsorted.imp of_decide_eq_true

theorem mem_directories_build {additions : List Addition} {directory : String} :
    directory ∈ (build additions).directories ↔
      ∃ addition ∈ additions, directory ∈ addition.directories := by
  induction additions using List.reverseRecOn with
  | nil => simp [build, empty]
  | append_singleton additions addition ih =>
      rw [build_append_singleton, directories_apply, Ordered.mem_foldl_insert, ih]
      simp [or_comm, or_and_right, exists_or]

/-- The file of a path is the one that was added there, if no two were that differ. -/
theorem lookup_files_build {additions : List Addition} {path : String} {content : Bytes}
    (hunique : ∀ path first second, (path, first) ∈ additions.filterMap Addition.file? →
      (path, second) ∈ additions.filterMap Addition.file? → first = second) :
    (build additions).files.lookup path = some content ↔
      (path, content) ∈ additions.filterMap Addition.file? := by
  induction additions using List.reverseRecOn with
  | nil => simp [build, empty]
  | append_singleton additions addition ih =>
      rw [List.filterMap_append] at hunique ⊢
      have hearlier := ih fun path first second hfirst hsecond => hunique path first second
        (List.mem_append_left _ hfirst) (List.mem_append_left _ hsecond)
      rw [build_append_singleton]
      cases addition with
      | directory other =>
          have hnone : [Addition.directory other].filterMap Addition.file? = [] := rfl
          rw [hnone, List.append_nil]
          exact hearlier
      | file other added =>
          have hone : [Addition.file other added].filterMap Addition.file?
              = [(PackagePath.normalize other, added)] := rfl
          rw [hone] at hunique ⊢
          have hadded := List.mem_append_right (additions.filterMap Addition.file?)
            (List.mem_singleton_self (PackagePath.normalize other, added))
          by_cases hpath : path = PackagePath.normalize other
          · subst hpath
            have hfound : ((Addition.file other added).apply (build additions)).files.lookup
                (PackagePath.normalize other) = some added := Ordered.lookup_put_self
            rw [hfound]
            constructor
            · intro hsame
              cases hsame
              exact hadded
            · exact fun h => congrArg some (hunique _ _ _ hadded h)
          · have hfound : ((Addition.file other added).apply (build additions)).files.lookup path
                = (build additions).files.lookup path := Ordered.lookup_update_of_ne hpath
            rw [hfound, hearlier, List.mem_append]
            simp [hpath]

theorem endsWith_of_mem_directories {additions : List Addition} {directory : String}
    (h : directory ∈ (build additions).directories) :
    Text.endsWith ['/'] directory.toList = true := by
  obtain ⟨addition, -, hdirectory⟩ := mem_directories_build.mp h
  obtain ⟨front, rfl⟩ : ∃ front, directory = String.ofList (front ++ ['/']) := by
    cases addition with
    | file path content =>
        obtain ⟨parent, hparent, rfl⟩ := List.mem_map.mp hdirectory
        obtain ⟨front, -, -, rfl⟩ := PackagePath.mem_parents.mp hparent
        exact ⟨front, rfl⟩
    | directory path => exact ⟨_, List.mem_singleton.mp hdirectory⟩
  simp [Text.endsWith]

/-- A package has what it stores under the canonical path as a file or lists as a directory. -/
theorem has_iff (package : MemoryPackage) {path : String} :
    package.has path = true ↔ (∃ content, package.content? path = some content) ∨
      PackagePath.normalize path ∈ package.directories := by
  rw [has, Bool.or_eq_true, Option.isSome_iff_exists, List.contains_iff_mem]
  rfl

/-- What a package has under a path without a slash at the end is a file. -/
theorem exists_content_of_has {additions : List Addition} {path : String}
    (hhas : (build additions).has path = true)
    (hslash : Text.endsWith ['/'] (PackagePath.normalize path).toList = false) :
    ∃ content, (build additions).content? path = some content := by
  refine ((build additions).has_iff.mp hhas).resolve_right fun hdirectory => ?_
  rw [endsWith_of_mem_directories hdirectory] at hslash
  cases hslash

end MemoryPackage
end ExtensionLint
