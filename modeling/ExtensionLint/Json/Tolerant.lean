import ExtensionLint.Json.Literal
import ExtensionLint.Text.Alphanumeric
import ExtensionLint.Text.Blank
/-!
The tolerant reader of JSON text, as people write it by hand: comments, missing and trailing commas,
strings in either quote, bare names, hexadecimal numbers and a plus sign. A text without any value
is no failure. Failures are reported with the line and column of the token at fault.
-/

namespace ExtensionLint.Json.Tolerant

def dialect : Dialect := ⟨true, true, true, none⟩

/-- What is being skipped between tokens. -/
inductive Skipping where
  | blanks
  | line
  /-- A block comment, given what is left of the text at its start. -/
  | block (start : List Char)
  deriving DecidableEq, Repr

def skip : Skipping → List Char → Except Failure (List Char)
  | .blanks, [] => .ok []
  | .blanks, '/' :: '/' :: rest => skip .line rest
  | .blanks, '/' :: '*' :: rest => skip (.block ('/' :: '*' :: rest)) rest
  | .blanks, c :: rest => if Text.isBlank c then skip .blanks rest else .ok (c :: rest)
  | .line, [] => .ok []
  | .line, '\n' :: rest => skip .blanks rest
  | .line, _ :: rest => skip .line rest
  | .block start, [] => .error ⟨.unterminatedComment, start⟩
  | .block _, '*' :: '/' :: rest => skip .blanks rest
  | .block start, _ :: rest => skip (.block start) rest

/-- Takes a word of the grammar. No letter or number may follow it. -/
def scanKeyword? (s : List Char) : Option (Token × List Char) :=
  (takeKeyword? s).filter fun (_, rest) => !rest.head?.any Text.isAlphanumeric

/-- Whether a character may be part of a bare word. -/
def isWordChar (c : Char) : Bool := Text.isAlphanumeric c || c = '-' || c = '_'

def endsWord (c : Char) : Bool := Text.isBlank c || c = ':'

def scanWord (s : List Char) : Scanned Token :=
  let word := s.takeWhile fun c => !endsWord c
  if word.isEmpty || !word.all isWordChar then .error ⟨.unexpectedToken, s⟩
  else .ok (.word (String.ofList word), s.dropWhile fun c => !endsWord c)

/-- The largest number that a hexadecimal literal may have. -/
def mostHex : Nat := Nat.pow 2 63 - 1

/-- The value of a hexadecimal literal. One that is too large stands for its own text. -/
def hexValue (negative : Bool) (digits : List Char) (text : String) : Json :=
  let value := Text.hexadecimalValue digits
  if value ≤ mostHex then .number (.integer (if negative then -(value : Int) else value))
  else .string text

/-- The value of a decimal literal. One that is out of range stands for its own text. -/
def decimalValue (literal : Decimal.Literal) (text : String) : Json :=
  match Number.ofLiteral? literal with
  | some n => .number n
  | none => .string text

/-- Takes a hexadecimal number after its sign and the mark of its base. -/
def scanHex (sign : Option Char) (mark : Char) (s : List Char) : Scanned Token :=
  let digits := s.takeWhile Text.isHexDigit
  let text := String.ofList (sign.toList ++ '0' :: mark :: digits)
  if digits.isEmpty then .error ⟨.expectedDigit, s⟩
  else .ok (.number text (hexValue (sign = some '-') digits text), s.dropWhile Text.isHexDigit)

def scanSigned (sign : Option Char) (s : List Char) : Scanned Token :=
  match scanDecimal (sign = some '-') s with
  | .error failure => .error failure
  | .ok (n, rest) =>
      let text := String.ofList (sign.toList ++ n.written)
      .ok (.number text (decimalValue n text), rest)

def scanMagnitude (sign : Option Char) (s : List Char) : Scanned Token :=
  match s with
  | '0' :: mark :: rest =>
      if mark = 'x' || mark = 'X' then scanHex sign mark rest else scanSigned sign s
  | _ => scanSigned sign s

def scanNumber (s : List Char) : Scanned Token :=
  scanMagnitude (takeSign s).1 (takeSign s).2

/-- Takes the token at the front of a text that starts with no blank and no comment. A string that
does not end is at fault as a whole. -/
def scan (s : List Char) : Scanned Token :=
  match s with
  | [] => .error ⟨.unexpectedToken, []⟩
  | c :: rest =>
      match punctuation? c with
      | some token => .ok (token, rest)
      | none =>
          if c = '"' || c = apostrophe then
            match scanString c true rest with
            | .ok (value, rest) => .ok (.string (String.ofList value), rest)
            | .error failure =>
                if failure.problem = .unterminatedString then .error ⟨.unterminatedString, s⟩
                else .error failure
          else if c = '-' || c = '+' || c.isDigit then scanNumber s
          else match scanKeyword? s with
            | some found => .ok found
            | none => scanWord s

theorem length_le_of_skip {skipping : Skipping} {s rest : List Char}
    (h : skip skipping s = .ok rest) : rest.length ≤ s.length := by
  fun_induction skip skipping s <;> grind

theorem length_lt_of_scanWord {s rest : List Char} {token : Token}
    (h : scanWord s = .ok (token, rest)) : rest.length < s.length := by
  rw [scanWord] at h
  split at h
  · cases h
  next nonempty =>
    obtain ⟨_, rfl⟩ := by simpa using h
    have taken : s.takeWhile (fun c => !endsWord c) ≠ [] := by
      intro none
      simp [none] at nonempty
    have split := congrArg List.length
      (List.takeWhile_append_dropWhile (p := fun c => !endsWord c) (l := s))
    have := List.length_pos_iff.2 taken
    rw [List.length_append] at split
    omega

theorem length_lt_of_scanSigned {sign : Option Char} {s rest : List Char} {token : Token}
    (h : scanSigned sign s = .ok (token, rest)) : rest.length < s.length := by
  unfold scanSigned at h
  split at h
  · cases h
  next found =>
    obtain ⟨_, rfl⟩ := by simpa using h
    exact length_lt_of_scanDecimal found

theorem length_le_of_scanHex {sign : Option Char} {mark : Char} {s rest : List Char}
    {token : Token} (h : scanHex sign mark s = .ok (token, rest)) : rest.length ≤ s.length := by
  rw [scanHex] at h
  split at h
  · cases h
  · obtain ⟨_, rfl⟩ := by simpa using h
    exact (List.dropWhile_suffix _).length_le

theorem length_lt_of_scanMagnitude {sign : Option Char} {s rest : List Char} {token : Token}
    (h : scanMagnitude sign s = .ok (token, rest)) : rest.length < s.length := by
  unfold scanMagnitude at h
  split at h
  · split at h
    · have := length_le_of_scanHex h
      simp only [List.length_cons]
      omega
    · exact length_lt_of_scanSigned h
  · exact length_lt_of_scanSigned h

theorem length_lt_of_scanNumber {s rest : List Char} {token : Token}
    (h : scanNumber s = .ok (token, rest)) : rest.length < s.length := by
  have unsigned := length_lt_of_scanMagnitude h
  have whole := congrArg List.length (eq_append_takeSign s)
  rw [List.length_append] at whole
  omega

theorem length_lt_of_scan {s rest : List Char} {token : Token}
    (h : scan s = .ok (token, rest)) : rest.length < s.length := by
  unfold scan at h
  split at h
  · cases h
  next c after =>
    split at h
    · obtain ⟨_, rfl⟩ := by simpa using h
      exact Nat.lt_succ_self _
    · split at h
      · split at h
        · next found =>
            obtain ⟨_, rfl⟩ := by simpa using h
            exact Nat.lt_succ_of_lt (length_lt_of_scanString found)
        · split at h <;> cases h
      · split at h
        · exact length_lt_of_scanNumber h
        · split at h
          · next found =>
              obtain ⟨rfl⟩ := by simpa using h
              exact length_lt_of_takeKeyword? (Option.filter_eq_some_iff.1 found).1
          · exact length_lt_of_scanWord h

def lexemes (text : List Char) : List Lexeme :=
  match _skipped : skip .blanks text with
  | .error failure => [.bad failure]
  | .ok [] => []
  | .ok (c :: rest) => match _found : scan (c :: rest) with
    | .error failure => [.bad failure]
    | .ok (token, after) =>
        .token token (c :: rest) :: lexemes after
  termination_by text.length
  decreasing_by exact Nat.lt_of_lt_of_le (length_lt_of_scan _found) (length_le_of_skip _skipped)

/-- Reads the text of one value, if there is a value at all. -/
def read (text : String) : Except String (Option Json) :=
  match dialect.assemble (lexemes text.toList) with
  | .ok value => .ok value
  | .error failure => .error (failure.message text.toList)

end ExtensionLint.Json.Tolerant
