import ExtensionLint.Text.Pieces
import Mathlib.Data.List.Infix

/-!
Looking for a part of a text. A search that fails says that the part is nowhere in the text. No
occurrence stretches over a sign that the part does not have, so a text up to such a sign is searched by
itself. A part at one end of the text is taken off by itself.
-/

namespace ExtensionLint.Text

variable {α : Type} {part s front rest : List α} {a c : α}

/-- A part that ends before a sign it does not have is there without the sign. -/
theorem prefix_of_prefix_append_cons (hc : c ∉ part) (h : part <+: front ++ c :: rest) :
    part <+: front := by
  obtain hshort | ⟨middle, hmiddle⟩ := List.prefix_or_prefix_of_prefix h (List.prefix_append _ _)
  · exact hshort
  · cases middle with
    | nil => exact ⟨[], by simpa using hmiddle.symm⟩
    | cons d middle =>
        rw [← hmiddle, List.prefix_append_right_inj, List.cons_prefix_cons] at h
        exact absurd (hmiddle ▸ List.mem_append_right front (h.1 ▸ List.mem_cons_self)) hc

/-- A part is found in front of a text that starts with a sign it does not have. -/
theorem prefix_of_prefix_append (hrest : ∀ a ∈ rest.head?, a ∉ part) (h : part <+: front ++ rest) :
    part <+: front := by
  cases rest with
  | nil => rwa [List.append_nil] at h
  | cons c rest => exact prefix_of_prefix_append_cons (hrest c rfl) h

variable [BEq α] [LawfulBEq α]

theorem isPrefixOf?_eq_none_iff : part.isPrefixOf? s = none ↔ ¬part <+: s := by
  simp only [Option.eq_none_iff_forall_ne_some, ne_eq, List.isPrefixOf?_eq_some_iff_append_eq]
  exact not_exists.symm

theorem stripFront?_eq_some_iff : stripFront? part s = some rest ↔ s = part ++ rest := by
  rw [stripFront?, List.isPrefixOf?_eq_some_iff_append_eq, eq_comm]

theorem stripBack?_eq_some_iff : stripBack? part s = some front ↔ s = front ++ part := by
  rw [stripBack?, Option.map_eq_some_iff]
  constructor
  · rintro ⟨rest, hrest, rfl⟩
    rw [← List.reverse_reverse s, eq_append_of_isPrefixOf? hrest, List.reverse_append,
      List.reverse_reverse]
  · rintro rfl
    refine ⟨front.reverse, ?_, List.reverse_reverse front⟩
    rw [List.reverse_append, isPrefixOf?_append]

theorem cut_self_append (part rest : List α) : cut part (part ++ rest) = some ([], rest) := by
  cases part with
  | nil => cases rest <;> rfl
  | cons a part => rw [List.cons_append, cut, ← List.cons_append, isPrefixOf?_append]

theorem cut_cons_of_not_start (h : ¬part <+: a :: s) :
    cut part (a :: s) = (cut part s).map fun (before, after) => (a :: before, after) := by
  rw [cut, isPrefixOf?_eq_none_iff.mpr h]

theorem cut_eq_none_iff : cut part s = none ↔ ¬part <:+: s := by
  induction s with
  | nil => simp [cut]
  | cons a s ih =>
      rw [List.infix_cons_iff, not_or, ← ih]
      by_cases hbegin : part <+: a :: s
      · obtain ⟨after, hafter⟩ := hbegin
        rw [cut, List.isPrefixOf?_eq_some_iff_append_eq.mpr hafter]
        simp [← hafter]
      · rw [cut_cons_of_not_start hbegin, Option.map_eq_none_iff]
        simp [hbegin]

theorem contains_iff : contains part s = true ↔ part <:+: s := by
  rw [contains, Option.isSome_iff_ne_none, ne_eq, cut_eq_none_iff, not_not]

/-- The search goes on after a text without the part and a sign that the part does not have. -/
theorem cut_append_cons_of_none (hne : part ≠ []) (hc : c ∉ part) (hfront : cut part front = none)
    (rest : List α) :
    cut part (front ++ c :: rest) =
      (cut part rest).map fun (before, after) => (front ++ c :: before, after) := by
  induction front with
  | nil =>
      have hhere : ¬part <+: c :: rest := fun hbegin =>
        have hempty : part <+: [] := prefix_of_prefix_append_cons hc hbegin
        hne (List.prefix_nil.mp hempty)
      exact cut_cons_of_not_start hhere
  | cons a front ih =>
      rw [cut_eq_none_iff, List.infix_cons_iff, not_or] at hfront
      have hhere : ¬part <+: a :: (front ++ c :: rest) :=
        fun hbegin => hfront.1 (prefix_of_prefix_append_cons hc hbegin)
      rw [List.cons_append, cut_cons_of_not_start hhere, ih (cut_eq_none_iff.mpr hfront.2),
        Option.map_map]
      rfl

/-- The search ends at the first occurrence, whatever comes after it. -/
theorem cut_append_of_some {before after : List α} (h : cut part s = some (before, after))
    (rest : List α) : cut part (s ++ rest) = some (before, after ++ rest) := by
  rw [eq_append_of_cut h, List.append_assoc _ after]
  exact cut_append h _

end ExtensionLint.Text
