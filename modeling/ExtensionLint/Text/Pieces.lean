/-!
Cutting lists into pieces: at every separator, at the first or last one, or around a given part.
The functions are stated for lists of any type; the linter uses them on characters.
-/

namespace ExtensionLint.Text

variable {α : Type}

/-- Cuts at every separator. There is one piece more than there are separators, so adjacent
separators leave empty pieces. -/
def splitBy (separates : α → Bool) : List α → List (List α)
  | [] => [[]]
  | a :: rest =>
      if separates a then [] :: splitBy separates rest
      else match splitBy separates rest with
        | [] => [[a]]
        | piece :: pieces => (a :: piece) :: pieces

def fields (separates : α → Bool) (s : List α) : List (List α) :=
  (splitBy separates s).filter fun piece => !piece.isEmpty

/-- Joins pieces with a separator text between neighbours. -/
def join (separator : List α) : List (List α) → List α
  | [] => []
  | [piece] => piece
  | piece :: next :: pieces => piece ++ separator ++ join separator (next :: pieces)

/-- What stands before and after the first occurrence of a part. -/
def cut [BEq α] (part : List α) : List α → Option (List α × List α)
  | [] => if part.isEmpty then some ([], []) else none
  | a :: rest =>
      match part.isPrefixOf? (a :: rest) with
      | some after => some ([], after)
      | none => (cut part rest).map fun (before, after) => (a :: before, after)

def contains [BEq α] (part s : List α) : Bool := (cut part s).isSome

/-- What stands before and after the first separator. -/
def splitFirst [BEq α] (separator : α) (s : List α) : Option (List α × List α) :=
  cut [separator] s

/-- What stands before and after the last separator. -/
def splitLast [BEq α] (separator : α) (s : List α) : Option (List α × List α) :=
  (cut [separator] s.reverse).map fun (after, before) => (before.reverse, after.reverse)

/-- What is left after a given front part. -/
def stripFront? [BEq α] (front s : List α) : Option (List α) := front.isPrefixOf? s

/-- What is left before a given back part. -/
def stripBack? [BEq α] (back s : List α) : Option (List α) :=
  (back.reverse.isPrefixOf? s.reverse).map List.reverse

def startsWith [BEq α] (front s : List α) : Bool := front.isPrefixOf s

def endsWith [BEq α] (back s : List α) : Bool := back.reverse.isPrefixOf s.reverse

theorem eq_append_of_isPrefixOf? [BEq α] [LawfulBEq α] {front s rest : List α}
    (h : front.isPrefixOf? s = some rest) : s = front ++ rest := by
  induction front generalizing s with
  | nil => exact Option.some.inj h
  | cons a front ih =>
      cases s with
      | nil => exact absurd h (Option.some_ne_none rest).symm
      | cons b s =>
          change (if a == b then front.isPrefixOf? s else none) = some rest at h
          split at h
          · next same => rw [eq_of_beq same, ih h, List.cons_append]
          · exact absurd h (Option.some_ne_none rest).symm

theorem isPrefixOf?_append [BEq α] [LawfulBEq α] (front rest : List α) :
    front.isPrefixOf? (front ++ rest) = some rest := by
  induction front with
  | nil => rfl
  | cons a front ih =>
      show (if a == a then front.isPrefixOf? (front ++ rest) else none) = some rest
      rw [if_pos (beq_self_eq_true a), ih]

/-- Nothing is lost around the first occurrence of a part. -/
theorem eq_append_of_cut [BEq α] [LawfulBEq α] {part s before after : List α}
    (h : cut part s = some (before, after)) : s = before ++ part ++ after := by
  induction s generalizing before after with
  | nil =>
      rw [cut] at h
      split at h <;> simp_all
  | cons a s ih =>
      rw [cut] at h
      split at h
      · next found =>
          obtain ⟨rfl, rfl⟩ := by simpa using h
          exact eq_append_of_isPrefixOf? found
      · simp only [Option.map_eq_some_iff, Prod.mk.injEq, Prod.exists] at h
        obtain ⟨before, after, found, rfl, rfl⟩ := h
        rw [List.cons_append, List.cons_append, ← ih found]

/-- What stands before a part does not depend on what comes after it. -/
theorem cut_append [BEq α] [LawfulBEq α] {part s before after : List α}
    (h : cut part s = some (before, after)) (other : List α) :
    cut part (before ++ part ++ other) = some (before, other) := by
  induction s generalizing before with
  | nil =>
      rw [cut] at h
      split at h
      · next hpart =>
          obtain ⟨rfl, -⟩ := by simpa using h
          obtain rfl := List.isEmpty_iff.mp hpart
          cases other <;> rfl
      · exact absurd h (by simp)
  | cons a s ih =>
      rw [cut] at h
      split at h
      · obtain ⟨rfl, -⟩ := by simpa using h
        cases part with
        | nil => cases other <;> rfl
        | cons b part =>
            rw [List.nil_append, List.cons_append, cut, ← List.cons_append, isPrefixOf?_append]
      · next hpart =>
          simp only [Option.map_eq_some_iff, Prod.mk.injEq, Prod.exists] at h
          obtain ⟨before, after, found, rfl, rfl⟩ := h
          have hlater : part.isPrefixOf? (a :: (before ++ part ++ other)) = none := by
            rw [Option.eq_none_iff_forall_ne_some]
            intro rest hrest
            -- A part that began here would end before the one that was found does.
            have hshort : part <+: a :: (before ++ part) :=
              List.prefix_of_prefix_length_le ⟨rest, (eq_append_of_isPrefixOf? hrest).symm⟩
                ⟨other, rfl⟩ (by simp; omega)
            obtain ⟨middle, hmiddle⟩ := hshort
            rw [eq_append_of_cut found, ← List.cons_append, ← hmiddle, List.append_assoc,
              isPrefixOf?_append] at hpart
            exact absurd hpart (by simp)
          rw [List.cons_append, List.cons_append, cut, hlater, ih found]
          rfl

theorem splitBy_ne_nil (separates : α → Bool) (s : List α) : splitBy separates s ≠ [] := by
  induction s with
  | nil => simp [splitBy]
  | cons a rest ih =>
      rw [splitBy]
      split
      · simp
      · split <;> simp

theorem splitBy_eq_singleton {separates : α → Bool} {s : List α}
    (h : ∀ a ∈ s, separates a = false) : splitBy separates s = [s] := by
  induction s with
  | nil => rfl
  | cons a rest ih =>
      simp only [List.mem_cons, forall_eq_or_imp] at h
      rw [splitBy, h.1, ih h.2]
      rfl

end ExtensionLint.Text
