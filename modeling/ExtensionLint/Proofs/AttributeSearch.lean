import ExtensionLint.Image.Svg
import ExtensionLint.Proofs.TextSearch

/-!
Looking for an attribute in the text of a tag. The search goes from one occurrence of the name to the
next and takes the first one with a blank before it and an equals sign and a quote after it. So it
passes over a text in which the name stands nowhere right after a blank, and over a longer word that
begins with the name, for that goes on with neither a blank nor an equals sign.
-/

namespace ExtensionLint.Svg

/-- Whether a sign may stand in the name of an attribute. -/
def isNameSign (c : Char) : Bool := !Text.isBlank c && c != '=' && !isQuote c

/-- Holds of texts in which a name stands nowhere right after a blank. -/
def Clear (name s : List Char) : Prop := ∀ c, Text.isBlank c = true → ¬c :: name <:+: s

/-- Holds of names that can be looked for. -/
structure IsName (name : List Char) : Prop where
  ne_nil : name ≠ []
  signs : ∀ c ∈ name, isNameSign c = true

instance (name : List Char) : Decidable (IsName name) :=
  decidable_of_iff (name ≠ [] ∧ name.all isNameSign = true)
    ⟨fun h => ⟨h.1, List.all_eq_true.mp h.2⟩, fun h => ⟨h.ne_nil, List.all_eq_true.mpr h.signs⟩⟩

/-- What a search answers at an occurrence, given its answer on the text that comes later. -/
def Follow.answer : Follow → Option (List Char) → Option (List Char)
  | .value found, _ => found
  | .other, later => later

section Signs

variable {name : List Char} {c : Char}

theorem isNameSign_iff :
    isNameSign c = true ↔ Text.isBlank c = false ∧ c ≠ '=' ∧ isQuote c = false := by
  simp only [isNameSign, Bool.and_eq_true, Bool.not_eq_true', bne_iff_ne, and_assoc]

theorem isNameSign_of_isBlank (hc : Text.isBlank c = true) : isNameSign c = false := by
  simp [isNameSign, hc]

theorem isNameSign_of_isQuote (hc : isQuote c = true) : isNameSign c = false := by
  simp [isNameSign, hc]

theorem isBlank_of_isQuote (hc : isQuote c = true) : Text.isBlank c = false := by
  simp only [isQuote, Bool.or_eq_true, decide_eq_true_eq] at hc
  rcases hc with rfl | rfl <;> decide

theorem IsName.not_mem (hname : IsName name) (hc : isNameSign c = false) : c ∉ name := by
  intro hmem
  rw [hname.signs c hmem] at hc
  exact absurd hc (by decide)

/-- A name begins with none of the signs that it does not have. -/
theorem IsName.not_prefix_cons (hname : IsName name) (hc : isNameSign c = false) (s : List Char) :
    ¬name <+: c :: s := by
  obtain ⟨d, rest, hsplit⟩ := List.exists_cons_of_ne_nil hname.ne_nil
  rw [hsplit, List.cons_prefix_cons]
  rintro ⟨rfl, -⟩
  exact hname.not_mem hc (hsplit ▸ List.mem_cons_self)

theorem clear_nil (name : List Char) : Clear name [] :=
  fun c _ hinside => List.cons_ne_nil c name (List.infix_nil.mp hinside)

theorem clear_cons {s : List Char} :
    Clear name (c :: s) ↔ (Text.isBlank c = true → ¬name <+: s) ∧ Clear name s := by
  constructor
  · intro h
    refine ⟨fun hc hbegin => ?_, fun d hd hinside => ?_⟩
    · exact h c hc (List.cons_prefix_cons.mpr ⟨rfl, hbegin⟩).isInfix
    · exact h d hd (hinside.trans (List.suffix_cons c s).isInfix)
  · rintro ⟨hhere, hlater⟩ d hd hinside
    rcases List.infix_cons_iff.mp hinside with hbegin | hinside
    · obtain ⟨rfl, hnext⟩ := List.cons_prefix_cons.mp hbegin
      exact hhere hd hnext
    · exact hlater d hd hinside

instance decidableClear (name : List Char) : (s : List Char) → Decidable (Clear name s)
  | [] => .isTrue (clear_nil name)
  | _ :: s => have := decidableClear name s; decidable_of_iff _ clear_cons.symm

theorem Clear.of_suffix {s t : List Char} (hs : Clear name s) (ht : t <:+ s) : Clear name t :=
  fun c hc hinside => hs c hc (hinside.trans ht.isInfix)

theorem clear_of_word {s : List Char} (hs : s.all isNameSign = true) : Clear name s := by
  intro c hc hinside
  have hsign := List.all_eq_true.mp hs c (hinside.subset List.mem_cons_self)
  rw [isNameSign_of_isBlank hc] at hsign
  exact absurd hsign (by decide)

theorem clear_of_blanks (hname : IsName name) {s : List Char} (hs : s.all Text.isBlank = true) :
    Clear name s := by
  intro c _ hinside
  obtain ⟨d, hd⟩ := List.exists_mem_of_ne_nil name hname.ne_nil
  have hblank := List.all_eq_true.mp hs d (hinside.subset (List.mem_cons_of_mem c hd))
  exact hname.not_mem (isNameSign_of_isBlank hblank) hd

/-- A name that goes on is no attribute. -/
theorem follow_cons (hc : isNameSign c = true) (rest : List Char) : follow (c :: rest) = .other := by
  obtain ⟨hblank, hsign, -⟩ := isNameSign_iff.mp hc
  have htrim : Text.trimStart (c :: rest) = c :: rest := List.dropWhile_cons_of_neg (by simp [hblank])
  rw [follow, htrim]
  split
  · next heq => exact absurd (List.cons.inj heq).1 hsign
  · rfl

end Signs

section Search

variable {name s front rest before after : List Char} {c : Char}

/-- One round of the search: the first occurrence is an attribute, or the search goes on after it. -/
theorem attribute?_of_cut (hname : name ≠ []) (h : Text.cut name s = some (before, after)) :
    attribute? name s =
      (if before.getLast?.any Text.isBlank then follow after else .other).answer
        (attribute? name after) := by
  have hshort : after.length < s.length := by
    have hpos := List.length_pos_iff.mpr hname
    rw [Text.eq_append_of_cut h, List.length_append, List.length_append]
    omega
  rw [attribute?, h]
  simp only [if_pos hshort]
  cases (if before.getLast?.any Text.isBlank then follow after else .other) <;> rfl

theorem attribute?_nil (hname : name ≠ []) : attribute? name [] = none := by
  rw [attribute?, Text.cut_eq_none_iff.mpr (by simpa using hname)]

/-- A name at the very front does not count. -/
theorem attribute?_name_append (hname : name ≠ []) (rest : List Char) :
    attribute? name (name ++ rest) = attribute? name rest := by
  rw [attribute?_of_cut hname (Text.cut_self_append name rest), List.getLast?_nil]
  rfl

/-- A name after a blank counts by what follows it. -/
theorem attribute?_blank_name_append (hname : IsName name) (hc : Text.isBlank c = true)
    (rest : List Char) :
    attribute? name (c :: (name ++ rest)) = (follow rest).answer (attribute? name rest) := by
  have hcut : Text.cut name (c :: (name ++ rest)) = some ([c], rest) := by
    rw [Text.cut_cons_of_not_start (hname.not_prefix_cons (isNameSign_of_isBlank hc) _),
      Text.cut_self_append]
    rfl
  rw [attribute?_of_cut hname.ne_nil hcut, List.getLast?_singleton, Option.any_some, if_pos hc]

/-- A sign where no name begins is passed over, unless it is the blank before a name. -/
theorem attribute?_cons (hname : name ≠ []) (hhere : ¬name <+: c :: s)
    (hnext : Text.isBlank c = true → ¬name <+: s) : attribute? name (c :: s) = attribute? name s := by
  have hcut := Text.cut_cons_of_not_start hhere
  cases hs : Text.cut name s with
  | none =>
      rw [hs] at hcut
      rw [attribute?, hcut, attribute?, hs]
      rfl
  | some found =>
      obtain ⟨before, after⟩ := found
      rw [hs] at hcut
      have hlast : (c :: before).getLast?.any Text.isBlank = before.getLast?.any Text.isBlank := by
        cases before with
        | nil =>
            -- The name follows at once, so the sign before it is no blank.
            have hstart : name <+: s := ⟨after, (Text.eq_append_of_cut hs).symm⟩
            simpa using fun hc => hnext hc hstart
        | cons d before => rw [List.getLast?_cons_cons]
      rw [attribute?_of_cut hname hcut, attribute?_of_cut hname hs, hlast]

/-- A clear text is passed over, up to a sign that names do not have. -/
theorem attribute?_append_of_clear (hname : IsName name) (hfront : Clear name front)
    (hrest : ∀ c ∈ rest.head?, isNameSign c = false) :
    attribute? name (front ++ rest) = attribute? name rest := by
  have hends : ∀ {front}, name <+: front ++ rest → name <+: front :=
    Text.prefix_of_prefix_append fun c hc => hname.not_mem (hrest c hc)
  -- The text gets shorter by a whole name where one begins, and by one sign elsewhere.
  induction hlength : front.length using Nat.strong_induction_on generalizing front with
  | _ n ih =>
      subst hlength
      by_cases hbegin : name <+: front
      · obtain ⟨later, rfl⟩ := hbegin
        have hshort : later.length < (name ++ later).length := by
          have hpos := List.length_pos_iff.mpr hname.ne_nil
          rw [List.length_append]
          omega
        rw [List.append_assoc, attribute?_name_append hname.ne_nil]
        exact ih _ hshort (hfront.of_suffix (List.suffix_append _ _)) rfl
      · cases front with
        | nil => rfl
        | cons c front =>
            obtain ⟨hnext, hlater⟩ := clear_cons.mp hfront
            have hhere : ¬name <+: c :: (front ++ rest) := fun h => hbegin (hends h)
            rw [List.cons_append,
              attribute?_cons hname.ne_nil hhere fun hc h => hnext hc (hends h)]
            exact ih _ (Nat.lt_succ_self _) hlater rfl

/-- A clear text is passed over with the sign after it, if that is neither a blank nor one of names. -/
theorem attribute?_append_cons_of_clear (hname : IsName name) (hfront : Clear name front)
    (hc : isNameSign c = false) (hblank : Text.isBlank c = false) (rest : List Char) :
    attribute? name (front ++ c :: rest) = attribute? name rest := by
  rw [attribute?_append_of_clear hname hfront (by simpa using hc)]
  exact attribute?_cons hname.ne_nil (hname.not_prefix_cons hc rest) fun h => absurd h (by simp [hblank])

/-- Of the blanks before a text only the last one counts. -/
theorem attribute?_blanks_append (hname : IsName name) {gap : List Char} (hne : gap ≠ [])
    (hgap : gap.all Text.isBlank = true) (rest : List Char) :
    attribute? name (gap ++ rest) = attribute? name (gap.getLast hne :: rest) := by
  have hblank := List.all_eq_true.mp hgap
  have hfront : Clear name gap.dropLast := clear_of_blanks hname <|
    List.all_eq_true.mpr fun c hc => hblank c (List.mem_of_mem_dropLast hc)
  have hlast := isNameSign_of_isBlank (hblank _ (List.getLast_mem hne))
  conv => lhs; rw [← List.dropLast_append_getLast hne]
  rw [List.append_assoc]
  exact attribute?_append_of_clear hname hfront (by simpa using hlast)

/-- Another word than the name is passed over after a blank too, also if it begins with the name. -/
theorem attribute?_blank_word_append (hname : IsName name) (hc : Text.isBlank c = true)
    {word : List Char} (hword : word.all isNameSign = true) (hne : word ≠ name)
    (hrest : ∀ d ∈ rest.head?, isNameSign d = false) :
    attribute? name (c :: (word ++ rest)) = attribute? name rest := by
  by_cases hbegin : name <+: word
  · -- The word goes on where the name ends, with a sign that is neither a blank nor an equals sign.
    obtain ⟨later, rfl⟩ := hbegin
    obtain ⟨d, more, rfl⟩ := List.exists_cons_of_ne_nil (l := later) fun hnil =>
      hne (by rw [hnil, List.append_nil])
    rw [List.all_append, Bool.and_eq_true] at hword
    have hlater : (d :: more).all isNameSign = true := hword.2
    have hd := List.all_eq_true.mp hlater d List.mem_cons_self
    rw [List.append_assoc, attribute?_blank_name_append hname hc, List.cons_append, follow_cons hd,
      ← List.cons_append]
    exact attribute?_append_of_clear hname (clear_of_word hlater) hrest
  · have hnext : ¬name <+: word ++ rest := fun h =>
      hbegin (Text.prefix_of_prefix_append (fun d hd => hname.not_mem (hrest d hd)) h)
    rw [attribute?_cons hname.ne_nil (hname.not_prefix_cons (isNameSign_of_isBlank hc) _)
      fun _ => hnext]
    exact attribute?_append_of_clear hname (clear_of_word hword) hrest

end Search

end ExtensionLint.Svg
