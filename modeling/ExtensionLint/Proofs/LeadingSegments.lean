import ExtensionLint.Proofs.PackagePath

/-!
What a canonical path leaves out. A path may start with segments that lead nowhere: slashes and
current directories, each slash as it is or as a backslash. The canonical spelling is the rest behind
them with its backslashes turned into slashes, and no other canonical path is such a rest. More segments
in front of a path make no difference, and nothing else has this effect.
-/

namespace ExtensionLint.PackagePath

/-- Holds of texts made of slashes and current directories only, the latter with their slashes. -/
inductive Segments : List Char → Prop where
  | nil : Segments []
  | slash {s : List Char} (hs : Segments s) : Segments ('/' :: s)
  | current {s : List Char} (hs : Segments s) : Segments ('.' :: '/' :: s)

section Front

variable {front s : List Char}

theorem Segments.dropLeading_append (hfront : Segments front) (s : List Char) :
    dropLeading (front ++ s) = dropLeading s := by
  induction hfront with
  | nil => rfl
  | slash _ ih => exact ih
  | current _ ih => exact ih

/-- Nothing but segments is removed. -/
theorem exists_segments_append (s : List Char) :
    ∃ front, Segments front ∧ s = front ++ dropLeading s := by
  fun_induction dropLeading s with
  | case1 rest ih =>
      obtain ⟨front, hfront, hsplit⟩ := ih
      exact ⟨'/' :: front, .slash hfront, congrArg ('/' :: ·) hsplit⟩
  | case2 rest ih =>
      obtain ⟨front, hfront, hsplit⟩ := ih
      exact ⟨'.' :: '/' :: front, .current hfront, congrArg ('.' :: '/' :: ·) hsplit⟩
  | case3 s => exact ⟨[], .nil, rfl⟩

/-- A text is made of segments exactly if nothing of it is left. -/
theorem segments_iff : Segments s ↔ dropLeading s = [] := by
  constructor
  · intro hs
    rw [← List.append_nil s, hs.dropLeading_append, dropLeading]
    all_goals simp
  · intro hs
    obtain ⟨front, hfront, hsplit⟩ := exists_segments_append s
    rw [hs, List.append_nil] at hsplit
    exact hsplit ▸ hfront

instance (s : List Char) : Decidable (Segments s) := decidable_of_iff _ segments_iff.symm

end Front

/-- The canonical spelling of a path is the one canonical path that is left of it behind segments. -/
theorem normalize_eq_iff {path canonical : String} :
    normalize path = canonical ↔ normalize canonical = canonical ∧
      ∃ front, Segments front ∧ forwardSlashes path.toList = front ++ canonical.toList := by
  constructor
  · rintro rfl
    rw [toList_normalize]
    exact ⟨normalize_normalize path, exists_segments_append _⟩
  · rintro ⟨hcanonical, front, hfront, hsplit⟩
    have hback : '\\' ∉ canonical.toList := hcanonical ▸ backslash_not_mem_normalize canonical
    rw [← hcanonical, normalize, normalize, hsplit, hfront.dropLeading_append,
      forwardSlashes_eq_self hback]

/-- Segments, their slashes written either way, make no difference in front of a path, and nothing else
makes none in front of every path. -/
theorem segments_forwardSlashes_iff {front : String} :
    Segments (forwardSlashes front.toList) ↔ ∀ path, normalize (front ++ path) = normalize path := by
  constructor
  · intro hfront path
    rw [normalize, String.toList_append, forwardSlashes_append, hfront.dropLeading_append, normalize]
  · intro h
    have hnothing : normalize front = "" := by
      rw [← String.append_empty (s := front), h]
      rfl
    rw [segments_iff, ← toList_normalize, hnothing]
    rfl

/-- The canonical spelling of a path has slashes only, starts neither with a slash nor with the current
directory and is its own canonical spelling. It is what is left of the path, written with slashes,
behind some segments; and segments in front of a path make no difference. -/
theorem normalize_canonical (path : String) :
    '\\' ∉ (normalize path).toList ∧ ¬['/'] <+: (normalize path).toList ∧
      ¬['.', '/'] <+: (normalize path).toList ∧ normalize (normalize path) = normalize path ∧
      (∃ front, Segments front ∧
        forwardSlashes path.toList = front ++ (normalize path).toList) ∧
      ∀ front : String, Segments (forwardSlashes front.toList) →
        normalize (front ++ path) = normalize path := by
  obtain ⟨hcanonical, hrest⟩ := normalize_eq_iff.mp (rfl : normalize path = normalize path)
  obtain ⟨hback, hslash, hcurrent⟩ := normalize_eq_self_iff.mp hcanonical
  exact ⟨hback, hslash, hcurrent, hcanonical, hrest,
    fun _ hfront => segments_forwardSlashes_iff.mp hfront path⟩

/-- What follows the segments may itself start with a dot. -/
theorem normalize_canonical_hidden :
    Segments (forwardSlashes "./\\.\\/".toList) ∧
      normalize ("./\\.\\/" ++ "/.\\.hidden\\a/./b") = ".hidden/a/./b" := by
  have hfront : Segments (forwardSlashes "./\\.\\/".toList) := by decide
  obtain ⟨-, -, -, -, -, hignored⟩ := normalize_canonical "/.\\.hidden\\a/./b"
  refine ⟨hfront, (hignored _ hfront).trans ?_⟩
  decide

end ExtensionLint.PackagePath
