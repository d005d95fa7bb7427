import ExtensionLint.Proofs.ChunkedReading
import ExtensionLint.Proofs.Utf8Encoding
import Mathlib.Data.List.Infix

/-!
What vector images start with. After byte order marks and blanks comes one of a few openings, all of
which start with an opening bracket, so that marks and blanks end there; and what stands at the front
of the bytes still stands there when more of them are read.
-/

namespace ExtensionLint.Svg

/-- The text after marks and blanks. -/
def lead (s : List Char) : List Char :=
  Text.trimStart (s.dropWhile (· == Char.ofNat 0xFEFF))

section Lead

variable {marks blanks rest : List Char}

theorem exists_eq_append_lead (s : List Char) :
    ∃ marks blanks, (∀ c ∈ marks, c = Char.ofNat 0xFEFF) ∧ (∀ c ∈ blanks, Text.isBlank c = true) ∧
      s = marks ++ (blanks ++ lead s) := by
  refine ⟨s.takeWhile (· == Char.ofNat 0xFEFF),
    (s.dropWhile (· == Char.ofNat 0xFEFF)).takeWhile Text.isBlank,
    fun c hc => ?_, fun c hc => ?_, ?_⟩
  · exact eq_of_beq (List.all_eq_true.mp List.all_takeWhile c hc)
  · exact List.all_eq_true.mp List.all_takeWhile c hc
  · rw [lead, Text.trimStart, List.takeWhile_append_dropWhile, List.takeWhile_append_dropWhile]

/-- Marks and blanks end at a sign that is neither. -/
theorem lead_append (hmarks : ∀ c ∈ marks, c = Char.ofNat 0xFEFF)
    (hblanks : ∀ c ∈ blanks, Text.isBlank c = true) (rest : List Char) :
    lead (marks ++ (blanks ++ '<' :: rest)) = '<' :: rest := by
  have hmark : ∀ c, Text.isBlank c = true → (c == Char.ofNat 0xFEFF) = false := by
    intro c hc
    refine beq_eq_false_iff_ne.mpr ?_
    rintro rfl
    exact absurd hc (by decide)
  have hfirst : (blanks ++ '<' :: rest).dropWhile (· == Char.ofNat 0xFEFF) =
      blanks ++ '<' :: rest := by
    cases blanks with
    | nil => exact List.dropWhile_cons_of_neg (by decide)
    | cons c blanks =>
        exact List.dropWhile_cons_of_neg (by simp [hmark c (hblanks c List.mem_cons_self)])
  rw [lead, List.dropWhile_append_of_pos (by simpa using hmarks), hfirst]
  exact Text.trimStart_blanks_append hblanks (by decide) rest

end Lead

theorem exists_of_mem_openings {opening : String} (h : opening ∈ openings) :
    ∃ signs, opening.toList = '<' :: signs := by
  have hhead : ∀ opening ∈ openings, opening.toList.head? = some '<' := by decide
  exact List.head?_eq_some_iff.mp (hhead opening h)

/-- A vector image starts with marks, then blanks, then one of the openings. -/
theorem isLikely_iff {bytes : Bytes} : isLikely bytes = true ↔
    ∃ opening ∈ openings, ∃ marks blanks, (∀ c ∈ marks, c = Char.ofNat 0xFEFF) ∧
      (∀ c ∈ blanks, Text.isBlank c = true) ∧
      marks ++ (blanks ++ opening.toList) <+: Utf8.toLenientText (bytes.take headLength) := by
  have hlikely : isLikely bytes = true ↔ ∃ opening ∈ openings,
      opening.toList <+: lead (Utf8.toLenientText (bytes.take headLength)) := by
    rw [isLikely, List.any_eq_true]
    simp only [Text.startsWith, List.isPrefixOf_iff_prefix, lead]
  rw [hlikely]
  constructor
  · rintro ⟨opening, hopening, after, hafter⟩
    obtain ⟨marks, blanks, hmarks, hblanks, htext⟩ :=
      exists_eq_append_lead (Utf8.toLenientText (bytes.take headLength))
    refine ⟨opening, hopening, marks, blanks, hmarks, hblanks, after, ?_⟩
    rw [List.append_assoc, List.append_assoc, hafter, ← htext]
  · rintro ⟨opening, hopening, marks, blanks, hmarks, hblanks, after, hafter⟩
    obtain ⟨signs, hsigns⟩ := exists_of_mem_openings hopening
    refine ⟨opening, hopening, after, ?_⟩
    rw [← hafter, hsigns, List.append_assoc, List.append_assoc, List.cons_append]
    exact (lead_append hmarks hblanks _).symm

/-- The first sign of a vector image is a mark, a blank or an opening bracket. -/
theorem first_of_isLikely {bytes : Bytes} (h : isLikely bytes = true) {c : Char}
    (hfirst : (Utf8.toLenientText (bytes.take headLength)).head? = some c) :
    c = Char.ofNat 0xFEFF ∨ Text.isBlank c = true ∨ c = '<' := by
  obtain ⟨rest, htext⟩ := List.head?_eq_some_iff.mp hfirst
  obtain ⟨opening, hopening, marks, blanks, hmarks, hblanks, after, hafter⟩ := isLikely_iff.mp h
  obtain ⟨signs, hsigns⟩ := exists_of_mem_openings hopening
  rw [htext, hsigns] at hafter
  cases marks with
  | cons mark marks =>
      obtain ⟨rfl, -⟩ := List.cons_eq_cons.mp hafter
      exact .inl (hmarks _ List.mem_cons_self)
  | nil =>
      cases blanks with
      | cons blank blanks =>
          obtain ⟨rfl, -⟩ := List.cons_eq_cons.mp hafter
          exact .inr (.inl (hblanks _ List.mem_cons_self))
      | nil => exact .inr (.inr (List.cons_eq_cons.mp hafter).1.symm)

theorem isLikely_of_front {part whole : Bytes} (hbegin : part <+: whole)
    (h : isLikely part = true) : isLikely whole = true := by
  have hend : ∀ opening ∈ openings, opening.toList.getLastD Utf8.mark ≠ Utf8.mark := by decide
  obtain ⟨opening, hopening, marks, blanks, hmarks, hblanks, hshown⟩ := isLikely_iff.mp h
  refine isLikely_iff.mpr ⟨opening, hopening, marks, blanks, hmarks, hblanks, ?_⟩
  obtain ⟨signs, hsigns⟩ := exists_of_mem_openings hopening
  have hne : opening.toList ≠ [] := hsigns ▸ List.cons_ne_nil _ _
  refine Utf8.toLenientText_of_front (hbegin.take headLength) (fun hlast => ?_) hshown
  rw [← List.append_assoc, List.getLast?_append_of_ne_nil _ hne] at hlast
  refine hend opening hopening ?_
  rw [List.getLastD_eq_getLast?, hlast]
  rfl

/-- Bytes that start with one of the openings are taken for a vector image. -/
theorem isLikely_ofText_append {opening : String} (hopening : opening ∈ openings) (rest : Bytes) :
    isLikely (Utf8.ofText opening ++ rest) = true := by
  have hfits : ∀ opening ∈ openings, (Utf8.ofText opening).length ≤ headLength := by decide
  refine isLikely_iff.mpr ⟨opening, hopening, [], [], by simp, by simp, ?_⟩
  rw [List.take_append, List.take_of_length_le (hfits opening hopening),
    Utf8.toLenientText_ofText_append]
  exact List.prefix_append _ _

end ExtensionLint.Svg
