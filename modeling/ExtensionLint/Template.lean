import ExtensionLint.Diagnostic
import ExtensionLint.Json.Decode
import ExtensionLint.Text.Pieces
/-!
Message templates. A placeholder is a name between braces. Filling replaces the placeholders whose
names have a value, from left to right and in one pass: what has been put in is never looked at
again, and a brace that opens no such placeholder stays as it is.
-/

namespace ExtensionLint

/-- The texts of a message and its severity. -/
structure Template where
  severity : Severity
  message : String
  description : Option String
  deriving DecidableEq, Repr, Inhabited

namespace Template

/-- Reads a template. The longer explanation may be left out. -/
def decode (value : Json) : Json.Decoded Template := do
  let record ← Json.decodeRecord 2 3 value
  return {
    severity := ← record.require 0 "severity" (Json.decodeChoice Severity.ofName?)
    message := ← record.require 1 "message" Json.decodeString
    description := ← record.getD 2 "description" (Json.decodeOption Json.decodeString) none }

/-- The value that stands for a placeholder and the text after the placeholder, given the text after
its opening brace. -/
def placeholder? (values : List (String × String)) (rest : List Char) :
    Option (String × List Char) :=
  (Text.splitFirst '}' rest).bind fun (name, after) =>
    (values.lookup (String.ofList name)).map fun value => (value, after)

theorem length_of_placeholder? {values : List (String × String)} {rest : List Char}
    {value : String} {after : List Char} (h : placeholder? values rest = some (value, after)) :
    after.length < rest.length := by
  simp only [placeholder?, Option.bind_eq_some_iff, Option.map_eq_some_iff, Prod.exists,
    Prod.mk.injEq] at h
  obtain ⟨name, last, found, _, _, _, rfl⟩ := h
  rw [Text.eq_append_of_cut found]
  simp
  omega

def fillText (values : List (String × String)) (s : List Char) : List Char :=
  match s with
  | [] => []
  | c :: rest =>
      if c = '{' then
        match _found : placeholder? values rest with
        | some (value, after) => value.toList ++ fillText values after
        | none => c :: fillText values rest
      else c :: fillText values rest
  termination_by s.length
  decreasing_by
    · exact Nat.lt_succ_of_lt (length_of_placeholder? _found)
    · simp
    · simp

end Template

/-- A template text with its placeholders filled in. -/
def fill (values : List (String × String)) (template : String) : String :=
  String.ofList (Template.fillText values template.toList)

end ExtensionLint
