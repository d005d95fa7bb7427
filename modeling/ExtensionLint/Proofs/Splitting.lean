import ExtensionLint.Proofs.Lists
import ExtensionLint.Text.Blank
import ExtensionLint.Text.Pieces
import Mathlib.Data.String.Basic

/-!
Texts that are cut at separators, and texts whose ends are cut off. The pieces around a separator are
those before it and those after it. So pieces without separators that are joined come apart again, and
what a text falls into, joined, is the text. Its fields are the words between separators. What is kept
of a text without the blanks at its ends is determined by where blanks are.
-/

namespace ExtensionLint.Text

variable {α β : Type} {separates : α → Bool} {separator : α}

theorem splitBy_append {s t piece : List α} {pieces : List (List α)}
    (hs : ∀ a ∈ s, separates a = false) (ht : splitBy separates t = piece :: pieces) :
    splitBy separates (s ++ t) = (s ++ piece) :: pieces := by
  induction s with
  | nil => simpa using ht
  | cons a s ih =>
      simp only [List.mem_cons, forall_eq_or_imp] at hs
      rw [List.cons_append, splitBy, hs.1, ih hs.2]
      rfl

theorem splitBy_append_separator (hseparator : separates separator = true) (s t : List α) :
    splitBy separates (s ++ separator :: t) = splitBy separates s ++ splitBy separates t := by
  induction s with
  | nil =>
      show splitBy separates (separator :: t) = [] :: splitBy separates t
      rw [splitBy, if_pos hseparator]
  | cons a s ih =>
      rw [List.cons_append, splitBy, splitBy, ih]
      split
      · rfl
      · cases hpieces : splitBy separates s with
        | nil => exact absurd hpieces (splitBy_ne_nil separates s)
        | cons piece pieces => rfl

/-- A piece ends at the first separator. -/
theorem splitBy_append_cons (hseparator : separates separator = true) {piece : List α}
    (hpiece : ∀ a ∈ piece, separates a = false) (rest : List α) :
    splitBy separates (piece ++ separator :: rest) = piece :: splitBy separates rest := by
  rw [splitBy_append_separator hseparator, splitBy_eq_singleton hpiece, List.singleton_append]

/-- Items that are each written after a separator are the pieces, after one that is empty. -/
theorem splitBy_flatMap (hseparator : separates separator = true) (write : β → List α)
    (items : List β) (hwrite : ∀ item ∈ items, ∀ a ∈ write item, separates a = false) :
    splitBy separates (items.flatMap fun item => separator :: write item) =
      [] :: items.map write := by
  induction items with
  | nil => rfl
  | cons item items ih =>
      simp only [List.mem_cons, forall_eq_or_imp] at hwrite
      have htail := splitBy_append hwrite.1 (ih hwrite.2)
      rw [List.flatMap_cons, List.cons_append, splitBy, if_pos hseparator, htail]
      simp

/-- Pieces without separators that are joined by separators come apart again. -/
theorem splitBy_join (hseparator : separates separator = true) {pieces : List (List α)}
    (hpieces : ∀ piece ∈ pieces, ∀ a ∈ piece, separates a = false) (hne : pieces ≠ []) :
    splitBy separates (join [separator] pieces) = pieces := by
  induction pieces with
  | nil => exact absurd rfl hne
  | cons piece pieces ih =>
      obtain ⟨hpiece, hrest⟩ := List.forall_mem_cons.mp hpieces
      cases pieces with
      | nil => exact splitBy_eq_singleton hpiece
      | cons next pieces =>
          rw [join, List.append_assoc, List.singleton_append, splitBy_append_cons hseparator hpiece,
            ih hrest (List.cons_ne_nil _ _)]

/-- The first piece goes up to the first separator. -/
theorem head?_splitBy (separates : α → Bool) (s : List α) :
    (splitBy separates s).head? = some (s.takeWhile fun a => !separates a) := by
  induction s with
  | nil => rfl
  | cons a s ih =>
      rw [splitBy]
      split
      · next ha => simp [ha]
      · next ha =>
          obtain ⟨pieces, hpieces⟩ := List.head?_eq_some_iff.mp ih
          simp [hpieces, ha]

theorem not_separates_of_mem_splitBy {s : List α} :
    ∀ piece ∈ splitBy separates s, ∀ a ∈ piece, separates a = false := by
  induction s with
  | nil => simp [splitBy]
  | cons a s ih =>
      rw [splitBy]
      split
      · exact List.forall_mem_cons.mpr ⟨fun _ h => absurd h List.not_mem_nil, ih⟩
      · next ha =>
          have hfirst : separates a = false := by simpa using ha
          cases hpieces : splitBy separates s with
          | nil => simpa using hfirst
          | cons piece pieces =>
              rw [hpieces] at ih
              obtain ⟨hpiece, hrest⟩ := List.forall_mem_cons.mp ih
              exact List.forall_mem_cons.mpr ⟨List.forall_mem_cons.mpr ⟨hfirst, hpiece⟩, hrest⟩

/-- The pieces of a text, joined by the only separator there is, are the text. -/
theorem join_splitBy (honly : ∀ a, separates a = true → a = separator) (s : List α) :
    join [separator] (splitBy separates s) = s := by
  induction s with
  | nil => rfl
  | cons a s ih =>
      cases hpieces : splitBy separates s with
      | nil => exact absurd hpieces (splitBy_ne_nil separates s)
      | cons piece pieces =>
          rw [hpieces] at ih
          rw [splitBy, hpieces]
          split
          · next ha => rw [join, ih, honly a ha, List.nil_append, List.singleton_append]
          · cases pieces <;> exact congrArg (a :: ·) ih

theorem forall_mem_join {p : α → Prop} (hseparator : p separator) {pieces : List (List α)}
    (hpieces : ∀ piece ∈ pieces, ∀ a ∈ piece, p a) : ∀ a ∈ join [separator] pieces, p a := by
  induction pieces with
  | nil => exact fun a ha => absurd ha List.not_mem_nil
  | cons piece pieces ih =>
      obtain ⟨hpiece, hrest⟩ := List.forall_mem_cons.mp hpieces
      cases pieces with
      | nil => exact hpiece
      | cons next pieces =>
          intro a ha
          rw [join, List.mem_append, List.mem_append, List.mem_singleton] at ha
          rcases ha with (ha | rfl) | ha
          · exact hpiece a ha
          · exact hseparator
          · exact ih hrest a ha

theorem join_eq_intercalate (between : List α) (pieces : List (List α)) :
    join between pieces = between.intercalate pieces := by
  fun_induction join between pieces with
  | case1 => rfl
  | case2 piece => rw [List.intercalate_singleton]
  | case3 piece next pieces ih => rw [ih, List.intercalate_cons_cons]

/-- A text falls into pieces in one way: they have no separator inside and, joined, they are the
text. -/
theorem splitBy_eq_iff (separator : α) (hseparator : separates separator = true)
    (honly : ∀ a, separates a = true → a = separator) {s : List α} {pieces : List (List α)} :
    splitBy separates s = pieces ↔
      [separator].intercalate pieces = s ∧ pieces ≠ [] ∧ ∀ piece ∈ pieces, separator ∉ piece := by
  rw [← join_eq_intercalate]
  constructor
  · rintro rfl
    refine ⟨join_splitBy honly s, splitBy_ne_nil separates s, fun piece hpiece hmem => ?_⟩
    have hinside := not_separates_of_mem_splitBy piece hpiece separator hmem
    exact absurd (hseparator.symm.trans hinside) (by decide)
  · rintro ⟨rfl, hne, hpieces⟩
    refine splitBy_join hseparator (fun piece hpiece a ha => ?_) hne
    rw [Bool.eq_false_iff]
    exact fun hseparates => hpieces piece hpiece (honly a hseparates ▸ ha)

section Fields

theorem fields_append {gap : List α} (hgap : ∀ a ∈ gap, separates a = true) (rest : List α) :
    fields separates (gap ++ rest) = fields separates rest := by
  induction gap with
  | nil => rfl
  | cons a gap ih =>
      obtain ⟨ha, htail⟩ := List.forall_mem_cons.mp hgap
      rw [← ih htail, List.cons_append, fields, splitBy, if_pos ha]
      rfl

theorem fields_eq_nil {gap : List α} (hgap : ∀ a ∈ gap, separates a = true) :
    fields separates gap = [] := by
  have hfields := fields_append hgap []
  rwa [List.append_nil] at hfields

/-- A field ends at the end of the text or at a separator. -/
theorem fields_word_append {word : List α} (hne : word ≠ []) (hword : ∀ a ∈ word, separates a = false)
    {rest : List α} (hapart : ∀ a ∈ rest.head?, separates a = true) :
    fields separates (word ++ rest) = word :: fields separates rest := by
  have hkept : (!word.isEmpty) = true := by simpa using hne
  cases rest with
  | nil =>
      rw [List.append_nil, fields, splitBy_eq_singleton hword, List.filter_cons, if_pos hkept]
      rfl
  | cons a rest =>
      have ha : separates a = true := hapart a rfl
      rw [fields, splitBy_append_cons ha hword, List.filter_cons, if_pos hkept, fields, splitBy,
        if_pos ha]
      rfl

theorem fields_append_separator (hseparator : separates separator = true) (s t : List α) :
    fields separates (s ++ separator :: t) = fields separates s ++ fields separates t := by
  rw [fields, splitBy_append_separator hseparator, List.filter_append]
  rfl

/-- Holds of a text and its words: they are not empty, no separator is in one, and separators stand
between them and may stand around them. -/
inductive HasWords (separates : α → Bool) : List α → List (List α) → Prop where
  | blank {gap : List α} (hgap : ∀ a ∈ gap, separates a = true) : HasWords separates gap []
  | word {gap word rest : List α} {words : List (List α)} (hgap : ∀ a ∈ gap, separates a = true)
      (hne : word ≠ []) (hword : ∀ a ∈ word, separates a = false)
      (hapart : ∀ a ∈ rest.head?, separates a = true) (hrest : HasWords separates rest words) :
      HasWords separates (gap ++ (word ++ rest)) (word :: words)

theorem HasWords.fields_eq {s : List α} {words : List (List α)} (h : HasWords separates s words) :
    fields separates s = words := by
  induction h with
  | blank hgap => exact fields_eq_nil hgap
  | word hgap hne hword hapart _ ih =>
      rw [fields_append hgap, fields_word_append hne hword hapart, ih]

theorem hasWords_fields (separates : α → Bool) (s : List α) :
    HasWords separates s (fields separates s) := by
  -- each word is taken off with the separators before it, so what is left gets shorter
  induction hlength : s.length using Nat.strongRecOn generalizing s with
  | ind n ih =>
      subst hlength
      obtain ⟨hs, hgap, hstart⟩ := longestFront_takeWhile separates s
      obtain ⟨hafter, hword, hrest⟩ :=
        longestFront_takeWhile (fun a => !separates a) (s.dropWhile separates)
      generalize s.takeWhile separates = gap at hs hgap
      generalize s.dropWhile separates = after at hs hstart hafter hword hrest
      generalize after.takeWhile (fun a => !separates a) = word at hafter hword
      generalize after.dropWhile (fun a => !separates a) = rest at hafter hrest
      subst hs hafter
      simp only [Bool.not_eq_true', Bool.not_eq_false'] at hword hrest
      cases word with
      | nil =>
          cases rest with
          | nil =>
              rw [List.append_nil, List.append_nil, fields_eq_nil hgap]
              exact .blank hgap
          | cons a rest => exact absurd ((hstart a rfl).symm.trans (hrest a rfl)) (by decide)
      | cons a word =>
          rw [fields_append hgap, fields_word_append (List.cons_ne_nil a word) hword hrest]
          exact .word hgap (List.cons_ne_nil a word) hword hrest (ih _ (by simp; omega) rest rfl)

/-- The fields of a text are its words. -/
theorem fields_eq_iff {s : List α} {words : List (List α)} :
    fields separates s = words ↔ HasWords separates s words :=
  ⟨fun h => h ▸ hasWords_fields separates s, HasWords.fields_eq⟩

end Fields

/-- Holds of a text and what is kept of it when the blanks at its ends are left out. -/
structure Trimmed (s kept : List Char) : Prop where
  around : ∃ front back, s = front ++ kept ++ back ∧
    (∀ c ∈ front, isBlank c = true) ∧ ∀ c ∈ back, isBlank c = true
  head : ∀ c ∈ kept.head?, isBlank c = false
  last : ∀ c ∈ kept.getLast?, isBlank c = false

theorem trimmed_trim (s : List Char) : Trimmed s (trim s) := by
  have hfront := longestFront_takeWhile isBlank s
  have hback := longestFront_takeWhile isBlank (trimStart s).reverse
  have hstart : trimStart s = trim s ++ ((trimStart s).reverse.takeWhile isBlank).reverse := by
    rw [trim, trimEnd, ← List.reverse_append, hback.append, List.reverse_reverse]
  refine ⟨⟨_, ((trimStart s).reverse.takeWhile isBlank).reverse, ?_, hfront.passes, ?_⟩, ?_, ?_⟩
  · rw [List.append_assoc, ← hstart]
    exact hfront.append.symm
  · exact fun c hc => hback.passes c (List.mem_reverse.mp hc)
  · intro c hc
    refine hfront.stops c ?_
    rw [← trimStart, hstart, List.head?_append, Option.mem_def.mp hc]
    rfl
  · intro c hc
    rw [trim, trimEnd, List.getLast?_reverse] at hc
    exact hback.stops c hc

theorem Trimmed.eq_trim {s kept : List Char} (h : Trimmed s kept) : kept = trim s := by
  obtain ⟨⟨front, back, rfl, hfront, hback⟩, hhead, hlast⟩ := h
  rcases List.eq_nil_or_concat kept with rfl | ⟨init, last, rfl⟩
  · -- there are only blanks
    have hblanks : (front ++ [] ++ back).dropWhile isBlank = [] := by
      rw [List.append_nil, List.dropWhile_append_of_pos hfront, List.dropWhile_eq_nil_iff]
      exact hback
    rw [trim, trimStart, hblanks]
    rfl
  · have hstart : LongestFront isBlank (front ++ init.concat last ++ back) front
        (init.concat last ++ back) :=
      ⟨(List.append_assoc _ _ _).symm, hfront, by simpa using hhead⟩
    have hend : LongestFront isBlank (init.concat last ++ back).reverse back.reverse
        (init.concat last).reverse :=
      ⟨List.reverse_append.symm, fun c hc => hback c (List.mem_reverse.mp hc),
        List.head?_reverse ▸ hlast⟩
    rw [trim, trimStart, hstart.dropWhile_eq, trimEnd, hend.dropWhile_eq, List.reverse_reverse]

theorem trimmed_iff {s kept : List Char} : Trimmed s kept ↔ kept = trim s :=
  ⟨Trimmed.eq_trim, fun h => h ▸ trimmed_trim s⟩

end ExtensionLint.Text
