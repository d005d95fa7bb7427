import Mathlib.Data.List.Basic
import Mathlib.Data.List.Flatten
import Mathlib.Data.List.Forall2
import Mathlib.Data.List.TakeWhile

/-!
Facts about lists of any type: the longest front of items that pass a test, lists that are related item by
item, and schedules that take the items of several lists in turn.
-/

namespace ExtensionLint

section Front

variable {α : Type} {test : α → Bool} {a : α} {items front rest : List α}

/-- Holds of a list, the longest front of items that pass a test, and what follows it. -/
structure LongestFront (test : α → Bool) (items front rest : List α) : Prop where
  append : front ++ rest = items
  passes : ∀ a ∈ front, test a = true
  stops : ∀ a ∈ rest.head?, test a = false

theorem of_mem_head?_dropWhile (h : a ∈ (items.dropWhile test).head?) : test a = false := by
  have hfirst := List.head?_dropWhile_not test items
  rw [Option.mem_def.mp h] at hfirst
  exact hfirst

theorem longestFront_takeWhile (test : α → Bool) (items : List α) :
    LongestFront test items (items.takeWhile test) (items.dropWhile test) where
  append := List.takeWhile_append_dropWhile
  passes _ h := List.mem_takeWhile_imp h
  stops _ h := of_mem_head?_dropWhile h

theorem LongestFront.takeWhile_eq (h : LongestFront test items front rest) :
    items.takeWhile test = front := by
  obtain ⟨rfl, hpasses, hstops⟩ := h
  rw [List.takeWhile_append_of_pos hpasses]
  cases rest with
  | nil => simp
  | cons a rest => simp [hstops a rfl]

theorem LongestFront.dropWhile_eq (h : LongestFront test items front rest) :
    items.dropWhile test = rest := by
  obtain ⟨rfl, hpasses, hstops⟩ := h
  rw [List.dropWhile_append_of_pos hpasses]
  cases rest with
  | nil => rfl
  | cons a rest => simp [hstops a rfl]

end Front

theorem mem_getD_map {α β : Type} {found : Option α} {give : α → List β} {b : β} :
    b ∈ (found.map give).getD [] ↔ ∃ a, found = some a ∧ b ∈ give a := by
  cases found <;> simp

section Related

variable {α β γ : Type}

theorem forall₂_flatMap {related : β → γ → Prop} {items : List α} {f : α → List β}
    {g : α → List γ} (h : ∀ a ∈ items, List.Forall₂ related (f a) (g a)) :
    List.Forall₂ related (items.flatMap f) (items.flatMap g) := by
  have hsame : List.Forall₂ (fun a b => a = b ∧ a ∈ items) items items :=
    List.forall₂_same.mpr fun a ha => ⟨rfl, ha⟩
  refine List.rel_flatMap hsame ?_
  rintro a _ ⟨rfl, ha⟩
  exact h a ha

/-- What is in one of two related lists is related to something in the other. -/
theorem exists_of_mem_of_forall₂ {related : α → β → Prop} {first : List α} {second : List β}
    (h : List.Forall₂ related first second) {b : β} (hb : b ∈ second) :
    ∃ a ∈ first, related a b := by
  induction h with
  | nil => cases hb
  | @cons a c first second hhead _ ih =>
      rcases List.mem_cons.mp hb with rfl | htail
      · exact ⟨a, List.mem_cons_self, hhead⟩
      · obtain ⟨found, hfound, hrelated⟩ := ih htail
        exact ⟨found, List.mem_cons_of_mem _ hfound, hrelated⟩

/-- Where one item is related to what a function makes of it only, so is a list. -/
theorem forall₂_iff_map_eq {related : α → β → Prop} {f : α → β}
    (h : ∀ a b, related a b ↔ f a = b) {items : List α} {images : List β} :
    List.Forall₂ related items images ↔ items.map f = images := by
  have hrelated : related = fun a b => f a = b := funext₂ fun a b => propext (h a b)
  rw [hrelated, ← List.forall₂_map_left_iff, List.forall₂_eq_eq_eq]

end Related

/-- Holds of a schedule of sequences: it takes the next item of any sequence that is not at its end,
until all are. -/
inductive Interleaves {α : Type} : List (List α) → List α → Prop where
  | done {sequences : List (List α)} (hdone : ∀ sequence ∈ sequences, sequence = []) :
      Interleaves sequences []
  | next {before after : List (List α)} {item : α} {rest schedule : List α} :
      Interleaves (before ++ rest :: after) schedule →
      Interleaves (before ++ (item :: rest) :: after) (item :: schedule)

theorem Interleaves.perm {α : Type} {sequences : List (List α)} {schedule : List α}
    (h : Interleaves sequences schedule) : schedule.Perm sequences.flatten := by
  induction h with
  | done hdone => rw [List.flatten_eq_nil_iff.mpr hdone]
  | @next before after item rest schedule _ ih =>
      have hitem : (before ++ (item :: rest) :: after).flatten =
          before.flatten ++ item :: (rest ++ after.flatten) := by simp
      have hrest : (before ++ rest :: after).flatten =
          before.flatten ++ (rest ++ after.flatten) := by simp
      rw [hitem]
      rw [hrest] at ih
      exact (ih.cons item).trans List.perm_middle.symm

/-- A list is a merge of what passes a test and what does not. -/
theorem interleaves_filter {α : Type} (test : α → Bool) (items : List α) :
    Interleaves [items.filter test, items.filter fun item => !test item] items := by
  induction items with
  | nil => exact .done (by simp)
  | cons item items ih =>
      cases htest : test item with
      | true =>
          rw [List.filter_cons_of_pos htest, List.filter_cons_of_neg (by simp [htest])]
          show Interleaves ([] ++ (item :: items.filter test) :: [_]) (item :: items)
          exact .next ih
      | false =>
          rw [List.filter_cons_of_neg (by simp [htest]), List.filter_cons_of_pos (by simp [htest])]
          show Interleaves ([items.filter test] ++ (item :: _) :: []) (item :: items)
          exact .next ih

end ExtensionLint
