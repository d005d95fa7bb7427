import ExtensionLint.Text.Ascii
import ExtensionLint.Text.Blank
import ExtensionLint.Text.Pieces
/-!
Version strings. A version is a list of parts between dots, and a part is a number, a text, a second
number and a rest. Two versions compare part by part as if the shorter one went on with zero parts.
Among texts the empty one comes last, so a release follows its prereleases, and a part `*` is larger
than any other.
-/

namespace ExtensionLint.Version

/-- One part of a version. -/
structure Part where
  number : Nat
  text : String
  second : Nat
  rest : String
  deriving DecidableEq, Repr, Inhabited

/-- The number that the digits at the front denote, and the text after them. No digits, or a number
that exceeds a 64-bit word, count as zero. -/
def splitNumber (s : List Char) : Nat × List Char :=
  ((Text.digits? Text.word64Max (s.takeWhile Char.isDigit)).getD 0, s.dropWhile Char.isDigit)

/-- The text up to the first digit, and what follows it. -/
def splitText (s : List Char) : List Char × List Char :=
  (s.takeWhile fun c => !c.isDigit, s.dropWhile fun c => !c.isDigit)

namespace Part

def wildcard : Part := ⟨Text.word64Max, "", 0, ""⟩

def ofText (s : List Char) : Part :=
  if s = ['*'] then wildcard
  else
    let (number, s) := splitNumber s
    let (text, s) := splitText s
    let (second, s) := splitNumber s
    ⟨number, String.ofList text, second, String.ofList s⟩

/-- The part that a shorter version goes on with. -/
def zero : Part := ⟨0, "", 0, ""⟩

end Part

/-- Compares two texts, the empty one coming last. -/
def compareText (a b : String) : Ordering :=
  match a.isEmpty, b.isEmpty with
  | true, true => .eq
  | true, false => .gt
  | false, true => .lt
  | false, false => compare a b

def Part.compare (a b : Part) : Ordering :=
  (((Ord.compare a.number b.number).then (compareText a.text b.text)).then
    (Ord.compare a.second b.second)).then (compareText a.rest b.rest)

/-- Compares two lists of parts, the shorter one going on with zero parts. -/
def compareParts : List Part → List Part → Ordering
  | [], [] => .eq
  | a :: as, [] => (a.compare .zero).then (compareParts as [])
  | [], b :: bs => (Part.zero.compare b).then (compareParts [] bs)
  | a :: as, b :: bs => (a.compare b).then (compareParts as bs)

/-- The parts of a version, blanks at its ends left out. -/
def parts (version : String) : List Part :=
  (Text.splitBy (· == '.') (Text.trim version.toList)).map Part.ofText

def compare (a b : String) : Ordering := compareParts (parts a) (parts b)

/-- The number at the front of a version, if there is one and a 64-bit word holds it. -/
def major? (version : String) : Option Nat :=
  Text.digits? Text.word64Max ((Text.trim version.toList).takeWhile Char.isDigit)

def mostParts : Nat := 4

def mostDigits : Nat := 9

/-- Whether a text is a canonical numeral with at most nine digits. -/
def isNumeral (part : List Char) : Bool :=
  !part.isEmpty && part.length ≤ mostDigits && part.all Char.isDigit &&
    (part = ['0'] || part.head? != some '0')

/-- Whether a version is one to four canonical numerals between dots. -/
def isValid (version : String) : Bool :=
  let parts := Text.splitBy (· == '.') version.toList
  parts.length ≤ mostParts && parts.all isNumeral

def isToolkitChar (c : Char) : Bool := c.isAlphanum || c = '+' || c = '-'

def isToolkitPart (part : List Char) : Bool :=
  (part.head?.any Char.isDigit) && part.all isToolkitChar

/-- Whether a version has the older format: one to four parts, each with a digit in front. -/
def isToolkit (version : String) : Bool :=
  let parts := Text.splitBy (· == '.') version.toList
  parts.length ≤ mostParts && parts.all isToolkitPart

end ExtensionLint.Version
