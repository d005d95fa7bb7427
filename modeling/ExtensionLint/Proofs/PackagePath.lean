import ExtensionLint.Package.Directory
import ExtensionLint.Package.Memory

/-!
Canonical paths. The canonical spelling of a path is what is left of it without slashes and current
directories at the front, so it is a fixed point, and an end that starts no such segment is kept as
it is. Packages ask for canonical paths only.
-/

namespace ExtensionLint

namespace PackagePath

/-- What `dropLeading` leaves does not start with a slash or the current directory. -/
theorem dropLeading_dropLeading (s : List Char) : dropLeading (dropLeading s) = dropLeading s := by
  fun_induction dropLeading s with
  | case1 rest ih => exact ih
  | case2 rest ih => exact ih
  | case3 s hslash hdot => exact dropLeading.eq_3 s hslash hdot

/-- An end that starts neither with a slash nor with the current directory is kept. -/
theorem dropLeading_append {s t : List Char} (hslash : ∀ rest, t ≠ '/' :: rest)
    (hdot : ∀ rest, t ≠ '.' :: '/' :: rest) : dropLeading (s ++ t) = dropLeading s ++ t := by
  fun_induction dropLeading s with
  | case1 rest ih => exact ih
  | case2 rest ih => exact ih
  | case3 s hs hd =>
      refine dropLeading.eq_3 (s ++ t) ?_ ?_
      · intro rest h
        cases s with
        | nil => exact hslash rest h
        | cons c s =>
            obtain ⟨rfl, -⟩ := List.cons.inj h
            exact hs s rfl
      · intro rest h
        match s with
        | [] => exact hdot rest h
        | [c] => exact hslash rest (List.cons.inj h).2
        | c :: d :: s =>
            simp only [List.cons_append, List.cons.injEq] at h
            obtain ⟨rfl, rfl, -⟩ := h
            exact hd s rfl

theorem dropLeading_suffix (s : List Char) : dropLeading s <:+ s := by
  fun_induction dropLeading s with
  | case1 rest ih => exact ih.trans (List.suffix_cons _ _)
  | case2 rest ih => exact ih.trans ((List.suffix_cons _ _).trans (List.suffix_cons _ _))
  | case3 => exact List.suffix_refl _

/-- Nothing is removed from a text exactly if it starts neither with a slash nor with the current
directory. -/
theorem dropLeading_eq_self_iff {s : List Char} :
    dropLeading s = s ↔ ¬['/'] <+: s ∧ ¬['.', '/'] <+: s := by
  constructor
  · -- What is removed is missing in the result.
    intro h
    constructor
    · rintro ⟨rest, rfl⟩
      have hshort := (dropLeading_suffix rest).length_le
      rw [List.singleton_append, dropLeading] at h
      rw [h, List.length_cons] at hshort
      omega
    · rintro ⟨rest, rfl⟩
      have hshort := (dropLeading_suffix rest).length_le
      rw [List.cons_append, List.singleton_append, dropLeading] at h
      rw [h, List.length_cons, List.length_cons] at hshort
      omega
  · rintro ⟨hslash, hdot⟩
    refine dropLeading.eq_3 s ?_ ?_
    · rintro rest rfl
      exact hslash ⟨rest, rfl⟩
    · rintro rest rfl
      exact hdot ⟨rest, rfl⟩

theorem forwardSlashes_append (s t : List Char) :
    forwardSlashes (s ++ t) = forwardSlashes s ++ forwardSlashes t := List.map_append

theorem forwardSlashes_eq_self {s : List Char} (h : '\\' ∉ s) : forwardSlashes s = s := by
  rw [forwardSlashes]
  conv => rhs; rw [← List.map_id s]
  apply List.map_congr_left
  intro c hc
  have hne : c ≠ '\\' := fun heq => h (heq ▸ hc)
  simp [hne]

theorem backslash_not_mem_forwardSlashes (s : List Char) : '\\' ∉ forwardSlashes s := by
  rw [forwardSlashes, List.mem_map]
  rintro ⟨c, -, hc⟩
  by_cases hback : c = '\\'
  · rw [if_pos hback] at hc
    exact absurd hc (by decide)
  · rw [if_neg hback] at hc
    exact hback hc

/-- Only backslashes become slashes. -/
theorem eq_of_forwardSlashes_eq {s t : List Char} (h : forwardSlashes s = t) (hslash : '/' ∉ t) :
    s = t := by
  subst h
  refine (forwardSlashes_eq_self fun hback => hslash ?_).symm
  exact List.mem_map.mpr ⟨'\\', hback, rfl⟩

theorem toList_normalize (path : String) :
    (normalize path).toList = dropLeading (forwardSlashes path.toList) := by
  rw [normalize, String.toList_ofList]

theorem backslash_not_mem_normalize (path : String) : '\\' ∉ (normalize path).toList := by
  rw [toList_normalize]
  exact fun h => backslash_not_mem_forwardSlashes path.toList ((dropLeading_suffix _).subset h)

theorem normalize_normalize (path : String) : normalize (normalize path) = normalize path := by
  rw [normalize, forwardSlashes_eq_self (backslash_not_mem_normalize path), toList_normalize,
    dropLeading_dropLeading, normalize]

/-- A path is in its canonical spelling exactly if it has no backslashes and starts neither with a slash
nor with the current directory. -/
theorem normalize_eq_self_iff {path : String} :
    normalize path = path ↔
      '\\' ∉ path.toList ∧ ¬['/'] <+: path.toList ∧ ¬['.', '/'] <+: path.toList := by
  constructor
  · intro h
    have hback := backslash_not_mem_normalize path
    have hlead := dropLeading_dropLeading (forwardSlashes path.toList)
    rw [← toList_normalize, h] at hlead
    rw [h] at hback
    exact ⟨hback, dropLeading_eq_self_iff.mp hlead⟩
  · rintro ⟨hback, hlead⟩
    rw [normalize, forwardSlashes_eq_self hback, dropLeading_eq_self_iff.mpr hlead,
      String.ofList_toList]

/-- The canonical spelling of a path keeps a plain ending. -/
theorem normalize_append {s t : List Char} (hback : '\\' ∉ t) (hslash : '/' ∉ t) :
    normalize (String.ofList (s ++ t)) =
      String.ofList ((normalize (String.ofList s)).toList ++ t) := by
  have hkeep : dropLeading (forwardSlashes s ++ t) = dropLeading (forwardSlashes s) ++ t := by
    apply dropLeading_append
    · rintro rest rfl
      exact hslash List.mem_cons_self
    · rintro rest rfl
      exact hslash (List.mem_cons_of_mem _ List.mem_cons_self)
  rw [toList_normalize, normalize, String.toList_ofList, String.toList_ofList,
    forwardSlashes_append, forwardSlashes_eq_self hback, hkeep]

/-- A plain ending of a canonical path is one of the path as it is written. -/
theorem suffix_of_suffix_normalize {path : String} {t : List Char} (hslash : '/' ∉ t)
    (h : t <:+ (normalize path).toList) : t <:+ path.toList := by
  rw [toList_normalize] at h
  obtain ⟨front, hfront⟩ := h.trans (dropLeading_suffix _)
  obtain ⟨stem, rest, hpath, -, hrest⟩ := List.map_eq_append_iff.mp hfront.symm
  rw [hpath, eq_of_forwardSlashes_eq hrest hslash]
  exact List.suffix_append _ _

end PackagePath

namespace Package

/-- Holds of the packages that the linter is given: those built file by file, and those that a
directory holds. -/
inductive Stored : Package → Prop where
  | memory (package : MemoryPackage) : Stored package.toPackage
  | directory (tree : FileTree) : Stored tree.toPackage

theorem Stored.has_normalize {package : Package} (hpackage : package.Stored) (path : String) :
    package.has (PackagePath.normalize path) = package.has path := by
  cases hpackage with
  | memory package =>
      simp only [MemoryPackage.toPackage, MemoryPackage.has, PackagePath.normalize_normalize]
  | directory tree =>
      simp only [FileTree.toPackage, DirectoryPackage.toPackage, DirectoryPackage.has,
        PackagePath.normalize_normalize]

end Package
end ExtensionLint
