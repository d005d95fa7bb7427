import ExtensionLint.Json.Basic
/-!
From tokens to a JSON value. Text is first cut into lexemes; a machine then takes one token after
the other. Its state is the place where it stands and the open containers around that place, each
with a hole for the value under way. A place in the text is given by what is left of the text there,
so neither the scanner nor the machine counts lines.
-/

namespace ExtensionLint.Json

/-- What is wrong with a text. -/
inductive Problem where
  | unexpectedCloseBrace
  | unexpectedCloseBracket
  | unexpectedColon
  | unexpectedComma
  | unexpectedWord
  /-- A character that no token starts with, or a word with a character that no word has. -/
  | unexpectedToken
  /-- Something in an object that is neither a name nor its end. -/
  | unexpectedTokenInObject
  | expectedColon
  | expectedMemberValue
  | unterminatedObject
  | unterminatedArray
  | secondValue
  | unterminatedComment
  | unterminatedString
  | expectedDigit
  | expectedDigitAfterSign
  | expectedExponent
  | unknownEscape
  | singleQuoteEscaped
  | doubleQuoteEscaped
  | expectedHexDigits
  | unpairedHighSurrogate (hex : String)
  | highSurrogateAlone (hex : String)
  | unpairedLowSurrogate (hex : String)
  | controlCharacter
  /-- A number beyond the range of the format. -/
  | numberOutOfRange
  | tooDeep
  deriving DecidableEq, Repr

/-- The wording for an escaped code unit that stands for no character. -/
def surrogateMessage (hex reason : String) : String :=
  "Invalid unicode escape sequence. '" ++ hex ++ " (" ++ reason ++
    ")' is not a valid UTF8 character"

def Problem.message : Problem → String
  | unexpectedCloseBrace => "Unexpected close brace"
  | unexpectedCloseBracket => "Unexpected close bracket"
  | unexpectedColon => "Unexpected colon"
  | unexpectedComma => "Unexpected comma"
  | unexpectedWord => "Unexpected word"
  | unexpectedToken => "Unexpected token"
  | unexpectedTokenInObject => "Unexpected token in object"
  | expectedColon => "Expected colon after the string or word in object property"
  | expectedMemberValue => "Expected value after colon in object property"
  | unterminatedObject => "Unterminated object"
  | unterminatedArray => "Unterminated array"
  | secondValue => "Text cannot contain more than one JSON value"
  | unterminatedComment => "Unterminated comment block"
  | unterminatedString => "Unterminated string literal"
  | expectedDigit => "Expected digit"
  | expectedDigitAfterSign => "Expected digit following negative sign"
  | expectedExponent => "Expected plus, minus, or digit in number literal"
  | unknownEscape => "Invalid escape"
  | singleQuoteEscaped => "Invalid escape in double quote string"
  | doubleQuoteEscaped => "Invalid escape in single quote string"
  | expectedHexDigits => "Expected four hex digits"
  | unpairedHighSurrogate hex => surrogateMessage hex "unpaired high surrogate"
  | highSurrogateAlone hex =>
      surrogateMessage hex "high surrogate not followed by low surrogate"
  | unpairedLowSurrogate hex => surrogateMessage hex "unpaired low surrogate"
  | controlCharacter => "Control character in string"
  | numberOutOfRange => "Number out of range"
  | tooDeep => "Nesting limit exceeded"

/-- A problem and where it is. -/
structure Failure where
  problem : Problem
  /-- What is left of the text at that place. -/
  left : List Char
  deriving DecidableEq, Repr

/-- The line of a place, counted from one, given the text before it. -/
def lineOf (before : List Char) : Nat := before.count '\n' + 1

/-- The column of a place, counted from one in characters, given the text before it. -/
def columnOf (before : List Char) : Nat :=
  (before.reverse.takeWhile (· != '\n')).length + 1

def Failure.message (failure : Failure) (text : List Char) : String :=
  let before := text.take (text.length - failure.left.length)
  failure.problem.message ++ " on line " ++ toString (lineOf before) ++
    " column " ++ toString (columnOf before)

/-- A token of JSON text. -/
inductive Token where
  | openBrace
  | closeBrace
  | openBracket
  | closeBracket
  | colon
  | comma
  | string (value : String)
  /-- A number, with its text and the value it stands for. -/
  | number (text : String) (value : Json)
  | bool (value : Bool)
  | null
  | word (text : String)
  deriving Repr

/-- A piece of the text as the scanner sees it. -/
inductive Lexeme where
  | token (token : Token) (left : List Char)
  /-- A place where no token can be made out. -/
  | bad (failure : Failure)
  deriving Repr

/-- What a reader of JSON text allows. -/
structure Dialect where
  /-- Whether the comma between two items or members may be missing. -/
  commasOptional : Bool
  /-- Whether a comma may stand before the end of a container. -/
  trailingComma : Bool
  bareNames : Bool
  /-- How many containers may be open at once, if that is limited. -/
  depthLimit : Option Nat
  deriving DecidableEq, Repr

/-- What came last inside a container. -/
inductive Stage where
  | opened
  | filled
  | separated
  deriving DecidableEq, Repr

/-- An open container that waits for a value. -/
inductive Hole where
  /-- An array with the items so far, the last one first. -/
  | item (start : List Char) (done : List Json)
  /-- An object with the members so far and the name of the one under way. -/
  | member (start : List Char) (name : String) (done : Object)

/-- Where the machine stands. -/
inductive Place where
  | value
  | items (start : List Char) (stage : Stage) (done : List Json)
  /-- Inside an object, where a name, a comma or the end may come. -/
  | members (start : List Char) (stage : Stage) (done : Object)
  | colon (start : List Char) (name : String) (done : Object)
  | finished (value : Json)

/-- The state of the machine: a place and the open containers around it, the innermost first. -/
structure State where
  place : Place
  /-- The containers that wait for the value under way. -/
  holes : List Hole

def State.initial : State := ⟨.value, []⟩

/-- Puts a complete value into the innermost hole. -/
def fill (value : Json) : List Hole → State
  | [] => ⟨.finished value, []⟩
  | .item start done :: holes => ⟨.items start .filled (value :: done), holes⟩
  | .member start name done :: holes =>
      ⟨.members start .filled (done.insert name value), holes⟩

/-- Opens a container unless that exceeds the depth limit. -/
def Dialect.openContainer (dialect : Dialect) (place : Place) (holes : List Hole) :
    Except Problem State :=
  match dialect.depthLimit with
  | some limit => if limit ≤ holes.length then .error .tooDeep else .ok ⟨place, holes⟩
  | none => .ok ⟨place, holes⟩

def Dialect.startValue (dialect : Dialect) (holes : List Hole) (token : Token) (left : List Char) :
    Except Problem State :=
  match token with
  | .string s => .ok (fill (.string s) holes)
  | .number _ value => .ok (fill value holes)
  | .bool b => .ok (fill (.bool b) holes)
  | .null => .ok (fill .null holes)
  | .openBracket => dialect.openContainer (.items left .opened []) holes
  | .openBrace => dialect.openContainer (.members left .opened .empty) holes
  | .closeBrace => .error .unexpectedCloseBrace
  | .closeBracket => .error .unexpectedCloseBracket
  | .colon => .error .unexpectedColon
  | .comma => .error .unexpectedComma
  | .word _ => .error .unexpectedWord

def Dialect.inArray (dialect : Dialect) (start : List Char) (stage : Stage) (done : List Json)
    (holes : List Hole) (token : Token) (left : List Char) : Except Problem State :=
  match stage, token with
  | .filled, .comma => .ok ⟨.items start .separated done, holes⟩
  | .separated, .closeBracket =>
      if dialect.trailingComma then .ok (fill (.array done.reverse) holes)
      else .error .unexpectedCloseBracket
  | _, .closeBracket => .ok (fill (.array done.reverse) holes)
  | .filled, token =>
      if dialect.commasOptional then
        dialect.startValue (.item start done :: holes) token left
      else .error .unexpectedToken
  | _, token => dialect.startValue (.item start done :: holes) token left

def Dialect.name? (dialect : Dialect) : Token → Option String
  | .string s => some s
  | .word text => if dialect.bareNames then some text else none
  | .number text _ => if dialect.bareNames then some text else none
  | _ => none

/-- Takes a token inside an object where no member is under way. -/
def Dialect.inObject (dialect : Dialect) (start : List Char) (stage : Stage) (done : Object)
    (holes : List Hole) (token : Token) : Except Problem State :=
  let name : Except Problem State := match dialect.name? token with
    | some name => .ok ⟨.colon start name done, holes⟩
    | none => .error .unexpectedTokenInObject
  match stage, token with
  | .filled, .comma => .ok ⟨.members start .separated done, holes⟩
  | .separated, .closeBrace =>
      if dialect.trailingComma then .ok (fill done.toJson holes)
      else .error .unexpectedTokenInObject
  | _, .closeBrace => .ok (fill done.toJson holes)
  | .filled, _ => if dialect.commasOptional then name else .error .unexpectedTokenInObject
  | _, _ => name

def Dialect.step (dialect : Dialect) (state : State) (token : Token) (left : List Char) :
    Except Problem State :=
  match state.place with
  | .value => dialect.startValue state.holes token left
  | .items start stage done => dialect.inArray start stage done state.holes token left
  | .members start stage done => dialect.inObject start stage done state.holes token
  | .colon start name done => match token with
    | .colon => .ok ⟨.value, .member start name done :: state.holes⟩
    | _ => .error .expectedColon
  | .finished _ => .error .secondValue

def Dialect.run (dialect : Dialect) : State → List Lexeme → Except Failure State
  | state, [] => .ok state
  | _, .bad failure :: _ => .error failure
  | state, .token token left :: rest =>
      match dialect.step state token left with
      | .ok next => dialect.run next rest
      | .error problem => .error ⟨problem, left⟩

/-- The value at the end of the text, if there is one at all. -/
def State.finish (state : State) : Except Failure (Option Json) :=
  match state.place with
  | .finished value => .ok (some value)
  | .value => if state.holes.isEmpty then .ok none else .error ⟨.expectedMemberValue, []⟩
  | .items start _ _ => .error ⟨.unterminatedArray, start⟩
  | .members start _ _ => .error ⟨.unterminatedObject, start⟩
  | .colon _ _ _ => .error ⟨.expectedColon, []⟩

/-- The value that lexemes make up, if there is one at all. -/
def Dialect.assemble (dialect : Dialect) (lexemes : List Lexeme) :
    Except Failure (Option Json) :=
  match dialect.run State.initial lexemes with
  | .ok state => state.finish
  | .error failure => .error failure

end ExtensionLint.Json
