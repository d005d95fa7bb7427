import ExtensionLint.Json.Basic
import ExtensionLint.Text.Ascii
import ExtensionLint.Text.Pieces
/-!
JSON pointers. A pointer is a text of tokens, each after a slash; inside a token a slash is written
`~1` and a tilde `~0`. A walk goes from a value along the tokens, through members by name and
through items by index. Walks differ only in which tokens they take for an index.
-/

namespace ExtensionLint.Json.Pointer

def replaceEscape (mark by_ : Char) : List Char → List Char
  | [] => []
  | [c] => [c]
  | c :: d :: rest =>
      if c = '~' && d = mark then by_ :: replaceEscape mark by_ rest
      else c :: replaceEscape mark by_ (d :: rest)

/-- The name that a token stands for. The escaped slash is read first. -/
def unescape (token : List Char) : List Char :=
  replaceEscape '0' '~' (replaceEscape '1' '/' token)

/-- The token that stands for a name. The tilde is escaped first. -/
def escape (name : List Char) : List Char :=
  (name.flatMap fun c => if c = '~' then ['~', '0'] else [c]).flatMap fun c =>
    if c = '/' then ['~', '1'] else [c]

def segments (pointer : String) : List (List Char) :=
  Text.splitBy (· == '/') pointer.toList

/-- The tokens of a pointer, which is empty or starts with a slash. -/
def tokens? (pointer : String) : Option (List (List Char)) :=
  match pointer.toList with
  | [] => some []
  | '/' :: rest => some ((Text.splitBy (· == '/') rest).map unescape)
  | _ => none

/-- An index as the standard writes it: digits without a superfluous zero in front. -/
def canonicalIndex? (token : List Char) : Option Nat :=
  match token with
  | '+' :: _ => none
  | '0' :: _ :: _ => none
  | digits => Text.natural? Text.word64Max digits

/-- An index as any number: zeros in front and one plus sign are allowed. -/
def looseIndex? (token : List Char) : Option Nat := Text.natural? Text.word64Max token

def step? (index? : List Char → Option Nat) (value : Json) (token : List Char) : Option Json :=
  match value with
  | .object members => members.lookup (String.ofList token)
  | .array items => (index? token).bind fun i => items[i]?
  | _ => none

def walk? (index? : List Char → Option Nat) (value : Json) : List (List Char) → Option Json
  | [] => some value
  | token :: rest => (step? index? value token).bind fun next => walk? index? next rest

/-- A step takes a token that is no index as a name. -/
theorem step?_of_not_index {index? : List Char → Option Nat} {token : List Char}
    (hindex : index? token = none) (value : Json) :
    step? index? value token = value.get? (String.ofList token) := by
  cases value with
  | array items => simp [step?, hindex, get?, members?]
  | _ => rfl

end Pointer

/-- The value that a pointer leads to. The empty pointer leads to the whole value. -/
def pointer? (value : Json) (pointer : String) : Option Json :=
  (Pointer.tokens? pointer).bind (Pointer.walk? Pointer.canonicalIndex? value)

end ExtensionLint.Json
