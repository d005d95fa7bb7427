import ExtensionLint.Json.Literal
/-!
The strict reader of JSON text: the grammar of the standard, at most 127 containers inside each
other, and every number within the range of its format.
-/

namespace ExtensionLint.Json.Strict

def dialect : Dialect := ⟨false, false, false, some 127⟩

def isSpace (c : Char) : Bool := c = ' ' || c = '\t' || c = '\n' || c = '\r'

def scanNumber (s : List Char) : Scanned Token :=
  let (negative, digits) := match s with
    | '-' :: rest => (true, rest)
    | rest => (false, rest)
  match scanDecimal negative digits with
  | .error failure => .error failure
  | .ok (n, rest) => match Number.ofLiteral? n with
    | some value => .ok (.number (String.ofList n.written) (.number value), rest)
    | none => .error ⟨.numberOutOfRange, s⟩

def scan (s : List Char) : Scanned Token :=
  match s with
  | [] => .error ⟨.unexpectedToken, []⟩
  | c :: rest =>
      match punctuation? c with
      | some token => .ok (token, rest)
      | none =>
          if c = '"' then
            match scanString '"' false rest with
            | .ok (value, rest) => .ok (.string (String.ofList value), rest)
            | .error failure => .error failure
          else if c = '-' || c.isDigit then scanNumber s
          else match takeKeyword? s with
            | some found => .ok found
            | none => .error ⟨.unexpectedToken, s⟩

theorem length_lt_of_scanNumber {s rest : List Char} {token : Token}
    (h : scanNumber s = .ok (token, rest)) : rest.length < s.length := by
  unfold scanNumber at h
  split at h
  next negative digits signed =>
    have shorter : digits.length ≤ s.length := by
      split at signed <;> obtain ⟨_, rfl⟩ := by simpa using signed
      · simp
      · exact Nat.le_refl _
    split at h
    · cases h
    next n after found =>
      split at h
      · obtain ⟨_, rfl⟩ := by simpa using h
        exact Nat.lt_of_lt_of_le (length_lt_of_scanDecimal found) shorter
      · cases h

theorem length_lt_of_scan {s rest : List Char} {token : Token}
    (h : scan s = .ok (token, rest)) : rest.length < s.length := by
  unfold scan at h
  split at h
  · cases h
  next c after =>
    split at h
    · obtain ⟨_, rfl⟩ := by simpa using h
      exact Nat.lt_succ_self _
    · split at h
      · split at h
        · next found =>
            obtain ⟨_, rfl⟩ := by simpa using h
            exact Nat.lt_succ_of_lt (length_lt_of_scanString found)
        · cases h
      · split at h
        · exact length_lt_of_scanNumber h
        · split at h
          · next found =>
              obtain ⟨rfl⟩ := by simpa using h
              exact length_lt_of_takeKeyword? found
          · cases h

def lexemes (text : List Char) : List Lexeme :=
  match text with
  | [] => []
  | c :: rest =>
      if isSpace c then lexemes rest
      else match _found : scan (c :: rest) with
        | .error failure => [.bad failure]
        | .ok (token, after) =>
            .token token (c :: rest) :: lexemes after
  termination_by text.length
  decreasing_by
    · exact Nat.lt_succ_self _
    · exact length_lt_of_scan _found

def read? (text : String) : Option Json :=
  match dialect.assemble (lexemes text.toList) with
  | .ok value => value
  | .error _ => none

end ExtensionLint.Json.Strict
