import ExtensionLint.Template
import Mathlib.Data.String.Basic

/-!
Filling templates in. A text without an opening brace stays as it is, and a placeholder with a value
gives way to the value; what comes after either is filled in by itself.
-/

namespace ExtensionLint

namespace Text

variable {α : Type} [BEq α] [LawfulBEq α] {separator : α} {s before after : List α}

theorem splitFirst_append (hbefore : separator ∉ before) (after : List α) :
    splitFirst separator (before ++ separator :: after) = some (before, after) := by
  have hcut : cut [separator] (before ++ separator :: after) = some (before, after) := by
    induction before with
    | nil => simp [cut, List.isPrefixOf?]
    | cons a before ih =>
        obtain ⟨hne, hrest⟩ := not_or.mp (mt List.mem_cons.mpr hbefore)
        simp [cut, List.isPrefixOf?, hne, ih hrest]
  exact hcut

theorem separator_not_mem_of_splitFirst (h : splitFirst separator s = some (before, after)) :
    separator ∉ before := by
  rw [splitFirst] at h
  induction s generalizing before with
  | nil => simp [cut] at h
  | cons a s ih =>
      have hhere : [separator].isPrefixOf? (a :: s) = if separator == a then some s else none := rfl
      rw [cut, hhere] at h
      by_cases hseparator : separator = a
      · rw [if_pos (beq_iff_eq.mpr hseparator)] at h
        obtain ⟨rfl, -⟩ := Prod.mk.inj (Option.some.inj h)
        exact List.not_mem_nil
      · rw [if_neg (mt beq_iff_eq.mp hseparator)] at h
        obtain ⟨⟨front, back⟩, hcut, heq⟩ := Option.map_eq_some_iff.mp h
        obtain ⟨rfl, rfl⟩ := Prod.mk.inj heq
        exact List.not_mem_cons_of_ne_of_not_mem hseparator (ih hcut)

theorem splitFirst_eq_some_iff :
    splitFirst separator s = some (before, after) ↔
      s = before ++ separator :: after ∧ separator ∉ before := by
  constructor
  · intro h
    have hs : s = before ++ [separator] ++ after := eq_append_of_cut h
    exact ⟨by simpa using hs, separator_not_mem_of_splitFirst h⟩
  · rintro ⟨rfl, hnot⟩
    exact splitFirst_append hnot after

/-- Before a separator there is a first one, and what stands before that has none. -/
theorem exists_splitFirst_append (separator : α) (front rest : List α) :
    ∃ after, splitFirst separator (front ++ separator :: rest) =
      some (front.takeWhile (· != separator), after) := by
  have hnot : separator ∉ front.takeWhile (· != separator) := fun hmem => by
    simpa using List.all_eq_true.mp List.all_takeWhile separator hmem
  have hfront := List.takeWhile_append_dropWhile (p := (· != separator)) (l := front)
  cases hdrop : front.dropWhile (· != separator) with
  | nil =>
      rw [hdrop, List.append_nil] at hfront
      rw [hfront] at hnot ⊢
      exact ⟨rest, splitFirst_append hnot rest⟩
  | cons a after =>
      have ha : a = separator := by
        have hhead := List.head_dropWhile_not (· != separator) (by simp [hdrop] : front.dropWhile _ ≠ [])
        simpa [hdrop] using hhead
      subst ha
      rw [hdrop] at hfront
      refine ⟨after ++ a :: rest, ?_⟩
      conv_lhs => rw [← hfront, List.append_assoc, List.cons_append]
      exact splitFirst_append hnot _

end Text

namespace Template

variable {values : List (String × String)}

/-- A text without an opening brace is kept. -/
theorem fillText_append {plain : List Char} (hplain : '{' ∉ plain) (rest : List Char) :
    fillText values (plain ++ rest) = plain ++ fillText values rest := by
  induction plain with
  | nil => rfl
  | cons c plain ih =>
      obtain ⟨hne, htail⟩ := not_or.mp (mt List.mem_cons.mpr hplain)
      rw [List.cons_append, fillText, if_neg (Ne.symm hne), ih htail, List.cons_append]

theorem fillText_placeholder {name value : String} (hname : '}' ∉ name.toList)
    (hvalue : values.lookup name = some value) (rest : List Char) :
    fillText values ('{' :: (name.toList ++ '}' :: rest)) =
      value.toList ++ fillText values rest := by
  have hfound : placeholder? values (name.toList ++ '}' :: rest) = some (value, rest) := by
    rw [placeholder?, Text.splitFirst_append hname]
    simp [hvalue]
  rw [fillText, if_pos rfl]
  split
  · next found =>
      obtain ⟨rfl, rfl⟩ := Prod.mk.inj (Option.some.inj (hfound.symm.trans found))
      rfl
  · next found => exact absurd (hfound.symm.trans found) (by simp)

end Template

/-- A template that ends in its only placeholder is filled in with the value of that at its end. -/
theorem fill_of_last {values : List (String × String)} {template front value : String}
    (name : String) (htemplate : template.toList = front.toList ++ '{' :: (name.toList ++ ['}']))
    (hfront : '{' ∉ front.toList) (hname : '}' ∉ name.toList)
    (hvalue : values.lookup name = some value) : fill values template = front ++ value := by
  rw [fill, htemplate, Template.fillText_append hfront,
    Template.fillText_placeholder hname hvalue, Template.fillText]
  simp

end ExtensionLint
