import ExtensionLint.Proofs.ScriptSources
import ExtensionLint.Proofs.Splitting
import Mathlib.Data.List.Basic

/-!
How policies are written. A directive is a name and tokens with blanks between them, and a policy is
directives with semicolons between them; there may be more blanks than are needed, and nothing but
blanks between two semicolons. Reading a policy gives the directives, whatever of this is used.
-/

namespace ExtensionLint

namespace SecurityPolicy

/-- A name or a token: some signs, none of them a blank or a semicolon. -/
structure Word where
  signs : List Char
  nonempty : signs ≠ []
  plain : ∀ c ∈ signs, Text.isBlank c = false ∧ c ≠ ';'

/-- A directive as it is written, letter case included. -/
structure Directive where
  name : Word
  tokens : List Word

namespace Word

def ofText (text : String) (hne : text.toList ≠ [])
    (hplain : (text.toList.all fun c => !Text.isBlank c && c != ';') = true) : Word :=
  ⟨text.toList, hne, fun c hc => by simpa using List.all_eq_true.mp hplain c hc⟩

def text (word : Word) : String := String.ofList word.signs

@[simp] theorem toList_text (word : Word) : word.text.toList = word.signs := String.toList_ofList

/-- Whether two words are the same up to the case of ASCII letters. -/
def Alike (a b : Word) : Prop := Text.sameLetters a.signs b.signs = true

instance (a b : Word) : Decidable (a.Alike b) := inferInstanceAs (Decidable (_ = true))

theorem alike_iff {a b : Word} : a.Alike b ↔ Text.lower a.signs = Text.lower b.signs := by
  rw [Alike, Text.sameLetters, beq_iff_eq]

end Word

namespace Directive

def words (directive : Directive) : List Word := directive.name :: directive.tokens

/-- The name by which a directive is found: its own in small letters. -/
def key (directive : Directive) : String := String.ofList (Text.lower directive.name.signs)

/-- What reading a directive gives. -/
def entry (directive : Directive) : String × List String :=
  (directive.key, directive.tokens.map Word.text)

end Directive

/-- Holds of texts of words with blanks around them. After a word comes a blank or the end. -/
inductive Spaced : List Word → List Char → Prop where
  | blank {gap : List Char} (hgap : ∀ c ∈ gap, Text.isBlank c = true) : Spaced [] gap
  | word {gap : List Char} (hgap : ∀ c ∈ gap, Text.isBlank c = true) (word : Word)
      {words : List Word} {rest : List Char} (hrest : Spaced words rest)
      (hapart : ∀ c ∈ rest.head?, Text.isBlank c = true) :
      Spaced (word :: words) (gap ++ (word.signs ++ rest))

/-- Holds of the texts between semicolons that write directives in their order. A text may also be
blank. -/
inductive Segments : List Directive → List (List Char) → Prop where
  | nil : Segments [] []
  | empty {s : List Char} (hs : Spaced [] s) {directives : List Directive}
      {segments : List (List Char)} (hrest : Segments directives segments) :
      Segments directives (s :: segments)
  | directive {directive : Directive} {s : List Char} (hs : Spaced directive.words s)
      {directives : List Directive} {segments : List (List Char)}
      (hrest : Segments directives segments) :
      Segments (directive :: directives) (s :: segments)

/-- Holds of policies that write directives in their order, with blanks and empty directives
anywhere. -/
def Writes (policy : String) (directives : List Directive) : Prop :=
  ∃ segments, Segments directives segments ∧ policy.toList = Text.join [';'] segments

/-- The plainest policy of directives: one space between words and nothing but semicolons between
directives. -/
def text (directives : List Directive) : String :=
  String.ofList (Text.join [';'] (directives.map fun directive =>
    Text.join [' '] (directive.words.map Word.signs)))

section Reading

variable {words : List Word} {s : List Char}

theorem semicolon_not_blank {c : Char} (h : Text.isBlank c = true) : (c == ';') = false := by
  rw [beq_eq_false_iff_ne]
  rintro rfl
  exact absurd h (by decide)

/-- There is no semicolon inside a directive. -/
theorem Spaced.semicolon (h : Spaced words s) : ∀ c ∈ s, (c == ';') = false := by
  induction h with
  | blank hgap => exact fun c hc => semicolon_not_blank (hgap c hc)
  | word hgap word _ _ ih =>
      intro c hc
      simp only [List.mem_append] at hc
      obtain hc | hc | hc := hc
      · exact semicolon_not_blank (hgap c hc)
      · exact beq_eq_false_iff_ne.mpr (word.plain c hc).2
      · exact ih c hc

theorem Spaced.fields_eq (h : Spaced words s) :
    Text.fields Text.isBlank s = words.map Word.signs := by
  induction h with
  | blank hgap => exact Text.fields_eq_nil hgap
  | word hgap word _ hapart ih =>
      rw [Text.fields_append hgap,
        Text.fields_word_append word.nonempty (fun c hc => (word.plain c hc).1) hapart, ih]
      rfl

theorem directive?_of_spaced {directive : Directive} (h : Spaced directive.words s) :
    directive? s = some directive.entry := by
  rw [directive?, h.fields_eq, Directive.words, List.map_cons]
  simp [Directive.entry, Directive.key, Word.text, Function.comp_def]

theorem directive?_of_blank (h : Spaced [] s) : directive? s = none := by
  rw [directive?, h.fields_eq]
  rfl

variable {directives : List Directive} {segments : List (List Char)}

theorem Segments.semicolon (h : Segments directives segments) :
    ∀ segment ∈ segments, ∀ c ∈ segment, (c == ';') = false := by
  induction h with
  | nil => exact fun _ h => absurd h List.not_mem_nil
  | empty hs _ ih => exact List.forall_mem_cons.mpr ⟨hs.semicolon, ih⟩
  | directive hs _ ih => exact List.forall_mem_cons.mpr ⟨hs.semicolon, ih⟩

theorem Segments.filterMap_eq (h : Segments directives segments) :
    segments.filterMap directive? = directives.map Directive.entry := by
  induction h with
  | nil => rfl
  | empty hs _ ih => rw [List.filterMap_cons_none (directive?_of_blank hs), ih]
  | directive hs _ ih =>
      rw [List.filterMap_cons_some (directive?_of_spaced hs), ih, List.map_cons]

theorem parse_of_writes {policy : String} (h : Writes policy directives) :
    parse policy = directives.map Directive.entry := by
  obtain ⟨segments, hsegments, hpolicy⟩ := h
  rw [parse, hpolicy, ← hsegments.filterMap_eq]
  cases segments with
  | nil => rfl
  | cons segment segments =>
      rw [Text.splitBy_join (by decide) hsegments.semicolon (List.cons_ne_nil _ _)]

end Reading

section Plainest

theorem Spaced.cons {words : List Word} {s : List Char} (h : Spaced words s) {c : Char}
    (hc : Text.isBlank c = true) : Spaced words (c :: s) := by
  cases h with
  | blank hgap => exact .blank (List.forall_mem_cons.mpr ⟨hc, hgap⟩)
  | word hgap word hrest hapart =>
      exact .word (List.forall_mem_cons.mpr ⟨hc, hgap⟩) word hrest hapart

theorem spaced_join (words : List Word) : Spaced words (Text.join [' '] (words.map Word.signs)) := by
  have hempty : ∀ c ∈ ([] : List Char), Text.isBlank c = true := by simp
  induction words with
  | nil => exact .blank hempty
  | cons word words ih =>
      cases words with
      | nil =>
          have hword := Spaced.word hempty word (.blank hempty) (by simp)
          rwa [List.append_nil] at hword
      | cons next words =>
          have hspace : Text.isBlank ' ' = true := by decide
          rw [List.map_cons, List.map_cons, Text.join, List.append_assoc, List.singleton_append]
          exact .word hempty word (ih.cons hspace) fun c hc => (Option.mem_some.mp hc) ▸ hspace

theorem writes_text (directives : List Directive) : Writes (text directives) directives := by
  refine ⟨_, ?_, String.toList_ofList⟩
  induction directives with
  | nil => exact .nil
  | cons directive directives ih => exact .directive (spaced_join directive.words) ih

end Plainest

end SecurityPolicy

end ExtensionLint
