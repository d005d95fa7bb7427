import ExtensionLint.Json.Basic
import ExtensionLint.Numeric.Shortest
/-!
JSON text. The compact form has no blanks; the indented form puts every item and member on a line of
its own. Both escape the quote, the backslash and the control characters below U+0020, and nothing
else.
-/

namespace ExtensionLint.Json

def hexDigit (n : Nat) : Char := if n < 10 then Char.ofNat (48 + n) else Char.ofNat (87 + n)

def writeChar (c : Char) : List Char :=
  if c = '"' then ['\\', '"']
  else if c = '\\' then ['\\', '\\']
  else if c.toNat = 8 then ['\\', 'b']
  else if c.toNat = 12 then ['\\', 'f']
  else if c = '\n' then ['\\', 'n']
  else if c = '\r' then ['\\', 'r']
  else if c = '\t' then ['\\', 't']
  else if c.toNat < 0x20 then
    ['\\', 'u', '0', '0', hexDigit (c.toNat / 16), hexDigit (c.toNat % 16)]
  else [c]

def writeString (s : String) : List Char := '"' :: s.toList.flatMap writeChar ++ ['"']

def writeInt : Int → List Char
  | .ofNat n => Nat.toDigits 10 n
  | .negSucc n => '-' :: Nat.toDigits 10 (n + 1)

def Number.write : Number → List Char
  | .integer n => writeInt n
  | .float x => x.jsonText.toList

mutual

def write : Json → List Char
  | .null => "null".toList
  | .bool true => "true".toList
  | .bool false => "false".toList
  | .number n => n.write
  | .string s => writeString s
  | .array items => '[' :: writeItems items ++ [']']
  | .object members => '{' :: writeMembers members ++ ['}']

def writeItems : List Json → List Char
  | [] => []
  | item :: rest => write item ++ writeMoreItems rest

def writeMoreItems : List Json → List Char
  | [] => []
  | item :: rest => ',' :: write item ++ writeMoreItems rest

def writeMembers : List (String × Json) → List Char
  | [] => []
  | (name, value) :: rest => writeString name ++ ':' :: write value ++ writeMoreMembers rest

def writeMoreMembers : List (String × Json) → List Char
  | [] => []
  | (name, value) :: rest =>
      ',' :: writeString name ++ ':' :: write value ++ writeMoreMembers rest

end

def text (value : Json) : String := String.ofList value.write

/-- A new line at a depth, two spaces for each level. -/
def newLine (depth : Nat) : List Char := '\n' :: List.replicate (2 * depth) ' '

mutual

/-- A value in the indented form, its first line being under way. -/
def writeIndented (depth : Nat) : Json → List Char
  | .null => "null".toList
  | .bool true => "true".toList
  | .bool false => "false".toList
  | .number n => n.write
  | .string s => writeString s
  | .array [] => ['[', ']']
  | .array (item :: rest) =>
      '[' :: newLine (depth + 1) ++ writeIndented (depth + 1) item ++
        writeIndentedItems (depth + 1) rest ++ newLine depth ++ [']']
  | .object [] => ['{', '}']
  | .object ((name, value) :: rest) =>
      '{' :: newLine (depth + 1) ++ writeString name ++ ": ".toList ++
        writeIndented (depth + 1) value ++
        writeIndentedMembers (depth + 1) rest ++ newLine depth ++ ['}']

/-- The items after the first, each on a line of its own. -/
def writeIndentedItems (depth : Nat) : List Json → List Char
  | [] => []
  | item :: rest =>
      ',' :: newLine depth ++ writeIndented depth item ++ writeIndentedItems depth rest

/-- The members after the first, each on a line of its own. -/
def writeIndentedMembers (depth : Nat) : List (String × Json) → List Char
  | [] => []
  | (name, value) :: rest =>
      ',' :: newLine depth ++ writeString name ++ ": ".toList ++ writeIndented depth value ++
        writeIndentedMembers depth rest

end

def indentedText (value : Json) : String := String.ofList (value.writeIndented 0)

end ExtensionLint.Json
