import ExtensionLint.Json.Reading
import ExtensionLint.Numeric.Decimal
/-!
The single tokens of JSON text: punctuation, words, numbers and strings. A scanner takes the text
from the start of a token and gives what the token stands for and the text after it.
-/

namespace ExtensionLint.Json

open Decimal (Exponent Literal writtenExponent writtenFraction)

/-- The number that a literal stands for, unless it is out of range. Without a fraction and an
exponent it is an integer if 64 bits hold it; a negative zero is no integer. -/
def Number.ofLiteral? (n : Literal) : Option Number :=
  let value := Text.decimalValue n.whole
  if n.fraction.isNone && n.exponent.isNone && !n.negative && value ≤ Text.word64Max then
    some (.integer value)
  else if n.fraction.isNone && n.exponent.isNone && n.negative && 0 < value &&
      value ≤ Nat.pow 2 63 then
    some (.integer (-value))
  else n.binary?.map .float

def punctuation? (c : Char) : Option Token :=
  if c = '{' then some .openBrace
  else if c = '}' then some .closeBrace
  else if c = '[' then some .openBracket
  else if c = ']' then some .closeBracket
  else if c = ':' then some .colon
  else if c = ',' then some .comma
  else none

def keywords : List (List Char × Token) :=
  [("true".toList, .bool true), ("false".toList, .bool false), ("null".toList, .null)]

def takeKeyword? (s : List Char) : Option (Token × List Char) :=
  keywords.findSome? fun (word, token) => (word.isPrefixOf? s).map fun rest => (token, rest)

/-- What a scanner finds: a result and the text after it, or a failure. -/
abbrev Scanned (α : Type) := Except Failure (α × List Char)

def scanDigits (s : List Char) : Scanned (List Char) :=
  let digits := s.takeWhile Char.isDigit
  if digits.isEmpty then .error ⟨.expectedDigit, s⟩
  else .ok (digits, s.dropWhile Char.isDigit)

def scanFraction : List Char → Scanned (Option (List Char))
  | '.' :: rest => match scanDigits rest with
    | .ok (digits, rest) => .ok (some digits, rest)
    | .error failure => .error failure
  | rest => .ok (none, rest)

def takeSign : List Char → Option Char × List Char
  | '-' :: rest => (some '-', rest)
  | '+' :: rest => (some '+', rest)
  | rest => (none, rest)

/-- Takes an exponent, if there is one. Without a sign its first digit must follow at once. -/
def scanExponent : List Char → Scanned (Option Exponent)
  | [] => .ok (none, [])
  | c :: rest =>
      if c = 'e' || c = 'E' then
        match takeSign rest with
        | (sign, digits) => match scanDigits digits with
          | .ok (found, rest) => .ok (some ⟨c, sign, found⟩, rest)
          | .error failure =>
              if sign.isNone then .error ⟨.expectedExponent, rest⟩ else .error failure
      else .ok (none, c :: rest)

/-- Takes the digits before the point. A zero in front stands alone. -/
def scanWhole : List Char → Scanned (List Char)
  | '0' :: rest => .ok (['0'], rest)
  | s => match scanDigits s with
    | .ok found => .ok found
    | .error _ => .error ⟨.expectedDigitAfterSign, s⟩

def scanDecimal (negative : Bool) (s : List Char) : Scanned Literal :=
  match scanWhole s with
  | .error failure => .error failure
  | .ok (whole, rest) => match scanFraction rest with
    | .error failure => .error failure
    | .ok (fraction, rest) => match scanExponent rest with
      | .error failure => .error failure
      | .ok (exponent, rest) => .ok (⟨negative, whole, fraction, exponent⟩, rest)

def scanHex4 (s : List Char) : Option (List Char × List Char) :=
  let digits := s.take 4
  if digits.length = 4 && digits.all Text.isHexDigit then some (digits, s.drop 4) else none

/-- Whether a code unit is the first half of a pair. -/
def isHighSurrogate (n : Nat) : Bool := 0xD800 ≤ n && n ≤ 0xDBFF

/-- Whether a code unit is the second half of a pair. -/
def isLowSurrogate (n : Nat) : Bool := 0xDC00 ≤ n && n ≤ 0xDFFF

/-- Takes an escaped code unit after `\u`, and the second half of a pair with it. -/
def scanCodeUnit (s : List Char) : Except Problem (Char × List Char) :=
  match scanHex4 s with
  | none => .error .expectedHexDigits
  | some (digits, rest) =>
      let unit := Text.hexadecimalValue digits
      let hex := String.ofList digits
      if isLowSurrogate unit then .error (.unpairedLowSurrogate hex)
      else if isHighSurrogate unit then
        match rest with
        | '\\' :: 'u' :: rest => match scanHex4 rest with
          | none => .error .expectedHexDigits
          | some (digits, rest) =>
              let second := Text.hexadecimalValue digits
              if isLowSurrogate second then
                .ok (Char.ofNat (0x10000 + (unit - 0xD800) * 0x400 + (second - 0xDC00)), rest)
              else .error (.highSurrogateAlone hex)
        | _ => .error (.unpairedHighSurrogate hex)
      else .ok (Char.ofNat unit, rest)

def simpleEscape? (c : Char) : Option Char :=
  if c = '\\' then some '\\'
  else if c = '/' then some '/'
  else if c = 'b' then some (Char.ofNat 8)
  else if c = 'f' then some (Char.ofNat 12)
  else if c = 'n' then some '\n'
  else if c = 'r' then some '\r'
  else if c = 't' then some '\t'
  else none

def apostrophe : Char := Char.ofNat 39

/-- Takes an escape after its backslash, in a string with a kind of quote. The other kind of quote
must not be escaped. -/
def scanEscape (quote : Char) : List Char → Except Problem (Char × List Char)
  | [] => .error .unterminatedString
  | c :: rest =>
      if c = 'u' then scanCodeUnit rest
      else if c = quote then .ok (c, rest)
      else if c = '"' then .error .doubleQuoteEscaped
      else if c = apostrophe then .error .singleQuoteEscaped
      else match simpleEscape? c with
        | some e => .ok (e, rest)
        | none => .error .unknownEscape

theorem length_lt_of_takeKeyword? {s rest : List Char} {token : Token}
    (h : takeKeyword? s = some (token, rest)) : rest.length < s.length := by
  obtain ⟨⟨word, _⟩, known, found⟩ := List.exists_of_findSome?_eq_some h
  obtain ⟨after, front, same⟩ := Option.map_eq_some_iff.1 found
  obtain ⟨_, rfl⟩ := by simpa using same
  have nonempty : word ≠ [] := by
    simp only [keywords, List.mem_cons, Prod.mk.injEq, List.not_mem_nil, or_false] at known
    rcases known with ⟨rfl, _⟩ | ⟨rfl, _⟩ | ⟨rfl, _⟩ <;> decide
  have := List.length_pos_iff.2 nonempty
  rw [Text.eq_append_of_isPrefixOf? front, List.length_append]
  omega

theorem eq_append_of_scanDigits {s digits rest : List Char}
    (h : scanDigits s = .ok (digits, rest)) : s = digits ++ rest ∧ digits ≠ [] := by
  rw [scanDigits] at h
  split at h
  · cases h
  · next some_digit =>
      obtain ⟨rfl, rfl⟩ := by simpa using h
      exact ⟨(List.takeWhile_append_dropWhile).symm, by simpa using some_digit⟩

theorem eq_append_of_scanFraction {s rest : List Char} {fraction : Option (List Char)}
    (h : scanFraction s = .ok (fraction, rest)) : s = writtenFraction fraction ++ rest := by
  unfold scanFraction at h
  split at h
  · split at h
    · next found =>
        obtain ⟨rfl, rfl⟩ := by simpa using h
        rw [(eq_append_of_scanDigits found).1]
        rfl
    · cases h
  · obtain ⟨rfl, rfl⟩ := by simpa using h
    rfl

theorem eq_append_takeSign (s : List Char) : s = (takeSign s).1.toList ++ (takeSign s).2 := by
  unfold takeSign
  split <;> rfl

theorem eq_append_of_scanExponent {s rest : List Char} {exponent : Option Exponent}
    (h : scanExponent s = .ok (exponent, rest)) : s = writtenExponent exponent ++ rest := by
  unfold scanExponent at h
  split at h
  · obtain ⟨rfl, rfl⟩ := by simpa using h
    rfl
  · next c after =>
      split at h
      · split at h
        next sign digits signed =>
          split at h
          · next found =>
              obtain ⟨rfl, rfl⟩ := by simpa using h
              have split := eq_append_takeSign after
              rw [signed, (eq_append_of_scanDigits found).1] at split
              rw [split]
              simp [writtenExponent, Exponent.written]
          · split at h <;> cases h
      · obtain ⟨rfl, rfl⟩ := by simpa using h
        rfl

theorem eq_append_of_scanWhole {s whole rest : List Char}
    (h : scanWhole s = .ok (whole, rest)) : s = whole ++ rest ∧ whole ≠ [] := by
  unfold scanWhole at h
  split at h
  · obtain ⟨rfl, rfl⟩ := by simpa using h
    exact ⟨rfl, by simp⟩
  · split at h
    · next found =>
        obtain ⟨rfl⟩ := by simpa using h
        exact eq_append_of_scanDigits found
    · cases h

/-- A number is what has been taken from the text, and something has been taken. -/
theorem eq_append_of_scanDecimal {negative : Bool} {s rest : List Char} {n : Literal}
    (h : scanDecimal negative s = .ok (n, rest)) : s = n.written ++ rest ∧ n.whole ≠ [] := by
  unfold scanDecimal at h
  split at h
  · cases h
  next whole afterWhole wholeFound =>
    split at h
    · cases h
    next fraction afterFraction fractionFound =>
      split at h
      · cases h
      next exponent afterExponent exponentFound =>
        obtain ⟨rfl, rfl⟩ := by simpa using h
        obtain ⟨same, nonempty⟩ := eq_append_of_scanWhole wholeFound
        refine ⟨?_, nonempty⟩
        rw [same, eq_append_of_scanFraction fractionFound,
          eq_append_of_scanExponent exponentFound]
        simp [Literal.written]

theorem length_lt_of_scanDecimal {negative : Bool} {s rest : List Char} {n : Literal}
    (h : scanDecimal negative s = .ok (n, rest)) : rest.length < s.length := by
  obtain ⟨same, nonempty⟩ := eq_append_of_scanDecimal h
  have := List.length_pos_iff.2 nonempty
  rw [same, Literal.written]
  simp only [List.length_append]
  omega

theorem length_le_of_scanHex4 {s digits rest : List Char}
    (h : scanHex4 s = some (digits, rest)) : rest.length ≤ s.length := by
  rw [scanHex4] at h
  split at h
  · obtain ⟨_, rfl⟩ := by simpa using h
    simp
  · cases h

theorem length_le_of_scanCodeUnit {s rest : List Char} {c : Char}
    (h : scanCodeUnit s = .ok (c, rest)) : rest.length ≤ s.length := by
  unfold scanCodeUnit at h
  split at h
  · cases h
  next digits after found =>
    have first := length_le_of_scanHex4 found
    dsimp only at h
    split at h
    · cases h
    · split at h
      · split at h
        · split at h
          · cases h
          next second =>
            have last := length_le_of_scanHex4 second
            split at h
            · obtain ⟨_, rfl⟩ := by simpa using h
              simp only [List.length_cons] at first
              omega
            · cases h
        · cases h
      · obtain ⟨_, rfl⟩ := by simpa using h
        exact first

theorem length_lt_of_scanEscape {quote : Char} {s rest : List Char} {c : Char}
    (h : scanEscape quote s = .ok (c, rest)) : rest.length < s.length := by
  unfold scanEscape at h
  split at h
  · cases h
  next d after =>
    rw [List.length_cons]
    split at h
    · exact Nat.lt_succ_of_le (length_le_of_scanCodeUnit h)
    · split at h
      · obtain ⟨_, rfl⟩ := by simpa using h
        exact Nat.lt_succ_self _
      · split at h
        · cases h
        · split at h
          · cases h
          · split at h
            · obtain ⟨_, rfl⟩ := by simpa using h
              exact Nat.lt_succ_self _
            · cases h

/-- Takes the rest of a string up to its closing quote. -/
def scanString (quote : Char) (controls : Bool) (s : List Char) : Scanned (List Char) :=
  match s with
  | [] => .error ⟨.unterminatedString, []⟩
  | c :: rest =>
      if c = quote then .ok ([], rest)
      else if c = '\\' then
        match found : scanEscape quote rest with
        | .error problem => .error ⟨problem, c :: rest⟩
        | .ok (e, after) =>
            have := length_lt_of_scanEscape found
            match scanString quote controls after with
            | .ok (tail, last) => .ok (e :: tail, last)
            | .error failure => .error failure
      else if !controls && c.toNat < 0x20 then .error ⟨.controlCharacter, c :: rest⟩
      else match scanString quote controls rest with
        | .ok (tail, last) => .ok (c :: tail, last)
        | .error failure => .error failure
  termination_by s.length
  decreasing_by all_goals simp only [List.length_cons]; omega

theorem length_lt_of_scanString {quote : Char} {controls : Bool} {s value rest : List Char}
    (h : scanString quote controls s = .ok (value, rest)) : rest.length < s.length := by
  fun_induction scanString quote controls s generalizing value with
  | case2 =>
      obtain ⟨_, rfl⟩ := by simpa using h
      exact Nat.lt_succ_self _
  | case4 _ _ _ _ shorter _ _ taken _ ih =>
      obtain ⟨_, rfl⟩ := by simpa using h
      have := ih taken
      simp only [List.length_cons]
      omega
  | case7 c tail _ _ _ _ last taken ih =>
      obtain ⟨_, rfl⟩ := by simpa using h
      have := ih taken
      simp only [List.length_cons]
      omega
  | _ => cases h

end ExtensionLint.Json
