import ExtensionLint.Catalog
import ExtensionLint.Proofs.Filling

/-!
The pieces of a template. Which parts of a template are placeholders is settled by its text and by the
names that have a value, before any value is looked at. Filling in keeps all else sign by sign and puts
the value of a name in the place of each of its placeholders; a value is only ever copied, so braces in
it are as good as any other signs.
-/

namespace ExtensionLint

namespace Template

/-- A part of a template. -/
inductive Piece where
  /-- A sign that stays as it is. -/
  | literal (c : Char)
  /-- A name between braces that has a value. -/
  | placeholder (name : String)
  deriving DecidableEq, Repr

namespace Piece

/-- What a piece is in the text of the template. -/
def written : Piece → List Char
  | literal c => [c]
  | placeholder name => '{' :: (name.toList ++ ['}'])

/-- What a piece becomes: a placeholder gives way to the first value of its name. -/
def filled (values : List (String × String)) : Piece → List Char
  | literal c => [c]
  | placeholder name => ((values.lookup name).getD "").toList

end Piece

/-- The name up to the next closing brace, if it is one of the names, and the text after the brace. -/
def named? (names : List String) (rest : List Char) : Option (String × List Char) :=
  (Text.splitFirst '}' rest).bind fun (name, after) =>
    if String.ofList name ∈ names then some (String.ofList name, after) else none

section Names

variable {names : List String} {name : String} {rest after : List Char}

theorem named?_eq_some_iff :
    named? names rest = some (name, after) ↔
      rest = name.toList ++ '}' :: after ∧ '}' ∉ name.toList ∧ name ∈ names := by
  rw [named?, Option.bind_eq_some_iff]
  constructor
  · rintro ⟨⟨front, back⟩, hsplit, hname⟩
    rw [Option.ite_none_right_eq_some] at hname
    obtain ⟨hmem, heq⟩ := hname
    obtain ⟨rfl, rfl⟩ := Prod.mk.inj (Option.some.inj heq)
    rw [String.toList_ofList]
    obtain ⟨hrest, hnot⟩ := Text.splitFirst_eq_some_iff.mp hsplit
    exact ⟨hrest, hnot, hmem⟩
  · rintro ⟨hrest, hnot, hmem⟩
    refine ⟨(name.toList, after), Text.splitFirst_eq_some_iff.mpr ⟨hrest, hnot⟩, ?_⟩
    simp [hmem]

theorem length_of_named? (h : named? names rest = some (name, after)) :
    after.length < rest.length := by
  obtain ⟨rfl, -⟩ := named?_eq_some_iff.mp h
  simp
  omega

/-- Where a placeholder ends depends on the names only, and its value is looked up by its name. -/
theorem placeholder?_eq (values : List (String × String)) (rest : List Char) :
    placeholder? values rest = (named? (values.map Prod.fst) rest).bind fun found =>
      (values.lookup found.1).map fun value => (value, found.2) := by
  rw [placeholder?, named?, Option.bind_assoc]
  congr 1
  funext found
  obtain ⟨name, after⟩ := found
  by_cases hname : String.ofList name ∈ values.map Prod.fst
  · simp only [if_pos hname, Option.bind_some]
  · have hlookup : values.lookup (String.ofList name) = none := by
      rw [List.lookup_eq_none_iff]
      intro entry hentry
      have : String.ofList name ≠ entry.1 := fun h => hname (h ▸ List.mem_map_of_mem hentry)
      simpa using this
    simp only [if_neg hname, Option.bind_none, hlookup, Option.map_none]

end Names

/-- The pieces of a template when so many names have a value. A brace that opens no placeholder is a
sign like others. -/
def pieces (names : List String) (s : List Char) : List Piece :=
  match s with
  | [] => []
  | c :: rest =>
      if c = '{' then
        match _found : named? names rest with
        | some (name, after) => .placeholder name :: pieces names after
        | none => .literal c :: pieces names rest
      else .literal c :: pieces names rest
  termination_by s.length
  decreasing_by
    · exact Nat.lt_succ_of_lt (length_of_named? _found)
    · simp
    · simp

section Pieces

variable (names : List String) (s : List Char)

/-- The pieces make up the template. -/
theorem flatMap_written_pieces : (pieces names s).flatMap Piece.written = s := by
  fun_induction pieces names s with
  | case1 => rfl
  | case2 rest name after hnamed ih =>
      rw [List.flatMap_cons, ih, (named?_eq_some_iff.mp hnamed).1]
      simp [Piece.written]
  | case3 rest _ ih => rw [List.flatMap_cons, ih]; rfl
  | case4 c rest _ ih => rw [List.flatMap_cons, ih]; rfl

theorem mem_names_of_placeholder_mem_pieces {name : String}
    (h : .placeholder name ∈ pieces names s) : name ∈ names := by
  fun_induction pieces names s with
  | case1 => cases h
  | case2 rest other after hnamed ih =>
      obtain heq | htail := List.mem_cons.mp h
      · obtain rfl := Piece.placeholder.inj heq
        exact (named?_eq_some_iff.mp hnamed).2.2
      · exact ih htail
  | case3 rest _ ih => exact ih ((List.mem_cons.mp h).resolve_left (by simp))
  | case4 c rest _ ih => exact ih ((List.mem_cons.mp h).resolve_left (by simp))

/-- A placeholder stands in the template, between its braces. -/
theorem infix_of_placeholder_mem_pieces {name : String} (h : .placeholder name ∈ pieces names s) :
    (Piece.placeholder name).written <:+: s := by
  obtain ⟨before, after, hsplit⟩ := List.append_of_mem h
  refine ⟨before.flatMap Piece.written, after.flatMap Piece.written, ?_⟩
  rw [← flatMap_written_pieces names s, hsplit]
  simp

/-- Where every name with a value stands for itself between braces, a piece becomes what it was. -/
theorem filled_eq_written {piece : Piece} (hpiece : piece ∈ pieces names s) :
    piece.filled (names.map fun name => (name, "\x7b" ++ name ++ "\x7d")) = piece.written := by
  cases piece with
  | literal c => rfl
  | placeholder name =>
      have hname := mem_names_of_placeholder_mem_pieces names s hpiece
      rw [Piece.filled, List.lookup_graph _ hname, Option.getD_some, Piece.written]
      simp

end Pieces

/-- A brace that opens no placeholder with a value stays. -/
theorem fillText_of_placeholder?_eq_none {values : List (String × String)} {rest : List Char}
    (h : placeholder? values rest = none) :
    fillText values ('{' :: rest) = '{' :: fillText values rest := by
  rw [fillText, if_pos rfl]
  split
  · next found => exact absurd (h.symm.trans found) (by simp)
  · rfl

/-- Filling in puts what each piece becomes in its place. -/
theorem fillText_eq_flatMap (values : List (String × String)) (s : List Char) :
    fillText values s = (pieces (values.map Prod.fst) s).flatMap (Piece.filled values) := by
  fun_induction pieces (values.map Prod.fst) s with
  | case1 => rw [fillText]; rfl
  | case2 rest name after hnamed ih =>
      obtain ⟨rfl, hnot, hmem⟩ := named?_eq_some_iff.mp hnamed
      obtain ⟨value, hvalue⟩ : ∃ value, values.lookup name = some value := by
        rw [← Option.isSome_iff_exists, List.lookup_isSome_iff]
        simpa using hmem
      rw [fillText_placeholder hnot hvalue, ih, List.flatMap_cons, Piece.filled, hvalue,
        Option.getD_some]
  | case3 rest hnamed ih =>
      have hnone : placeholder? values rest = none := by rw [placeholder?_eq, hnamed]; rfl
      rw [fillText_of_placeholder?_eq_none hnone, ih]
      rfl
  | case4 c rest hne ih =>
      rw [fillText, if_neg hne, ih]
      rfl

/-- A template without any of the placeholders has literal pieces only. -/
theorem filled_eq_written_of_not_infix {values : List (String × String)} {names : List String}
    {s : List Char} (hnone : ∀ name ∈ names, ¬(Piece.placeholder name).written <:+: s) {piece : Piece}
    (hpiece : piece ∈ pieces names s) : piece.filled values = piece.written := by
  cases piece with
  | literal c => rfl
  | placeholder name =>
      exact absurd (infix_of_placeholder_mem_pieces names s hpiece)
        (hnone name (mem_names_of_placeholder_mem_pieces names s hpiece))

end Template

open Template

/-- A template has the same pieces whatever the values of its names are, and filling it in keeps its
literal signs and copies, for each placeholder, the first value of its name. So a template that has
none of the placeholders stays as it is, and one in which each name stands for itself between braces
is given back. -/
theorem fill_pieces (template : String) (names : List String) :
    (pieces names template.toList).flatMap Piece.written = template.toList ∧
    (∀ name, .placeholder name ∈ pieces names template.toList → name ∈ names) ∧
    (∀ values : List (String × String), values.map Prod.fst = names →
      (fill values template).toList =
        (pieces names template.toList).flatMap (Piece.filled values)) ∧
    (∀ values : List (String × String), values.map Prod.fst = names →
      (∀ name ∈ names, ¬(Piece.placeholder name).written <:+: template.toList) →
        fill values template = template) ∧
    fill (names.map fun name => (name, "\x7b" ++ name ++ "\x7d")) template = template := by
  have hwritten := flatMap_written_pieces names template.toList
  have hfill : ∀ values : List (String × String), values.map Prod.fst = names →
      (fill values template).toList =
        (pieces names template.toList).flatMap (Piece.filled values) := by
    rintro values rfl
    rw [fill, String.toList_ofList, fillText_eq_flatMap]
  -- What becomes of every piece as it was written becomes of the whole template.
  have hsame : ∀ values : List (String × String), values.map Prod.fst = names →
      (∀ piece ∈ pieces names template.toList, piece.filled values = piece.written) →
        fill values template = template := by
    intro values hnames hpieces
    rw [← String.toList_inj, hfill values hnames, List.flatMap_congr hpieces, hwritten]
  refine ⟨hwritten, fun name => mem_names_of_placeholder_mem_pieces names template.toList, hfill,
    fun values hnames hnone => hsame values hnames fun _ => filled_eq_written_of_not_infix hnone, ?_⟩
  refine hsame _ ?_ fun _ => filled_eq_written names template.toList
  simp [Function.comp_def]

-- No name starts at the first brace, since the text up to the closing one has no value.
example : pieces ["a"] "\x7b\x7ba\x7d".toList = [.literal '{', .placeholder "a"] := by cbv

/-- What a finding says is made of the pieces of its template, and no value adds another one. -/
theorem Catalog.render_pieces (catalog : Catalog) (code : Code) (values : List (String × String)) :
    (catalog.render code values).message.toList =
      (pieces (values.map Prod.fst) (catalog.template code).message.toList).flatMap
        (Piece.filled values) := by
  rw [Catalog.render, fill, String.toList_ofList, fillText_eq_flatMap]

end ExtensionLint
