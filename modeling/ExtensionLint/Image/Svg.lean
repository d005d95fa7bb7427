import ExtensionLint.Image.Basic
import ExtensionLint.Numeric.Decimal
import ExtensionLint.Text.Blank
/-!
Vector images. The geometry is taken from the text of the first root element: from the attributes
`width` and `height` if both are plain lengths, or else from the view box. Bytes that are no text
are read leniently.
-/

namespace ExtensionLint.Svg

/-- How far into the bytes the start of the text is looked for. -/
def headLength : Nat := 256

def openings : List String := ["<?xml", "<svg", "<!--", "<!DOCTYPE svg"]

/-- Whether the bytes start like a vector image, after marks and blanks. -/
def isLikely (bytes : Bytes) : Bool :=
  let head := Utf8.toLenientText (bytes.take headLength)
  let text := Text.trimStart (head.dropWhile (· == Char.ofNat 0xFEFF))
  openings.any fun opening => Text.startsWith opening.toList text

/-- The value between quotes at the front of a text. -/
def quoted? : List Char → Option (List Char)
  | quote :: rest => (Text.splitFirst quote rest).map Prod.fst
  | [] => none

def isQuote (c : Char) : Bool := c = '"' || c = Char.ofNat 39

/-- What follows the name of an attribute. -/
inductive Follow where
  /-- A value, or a quote that is never closed. -/
  | value (value : Option (List Char))
  /-- Anything else, so that the name was none. -/
  | other
  deriving DecidableEq, Repr

/-- Looks at what follows a name: an equals sign and a quoted value make it an attribute. An equals
sign at the very end of the tag ends the search. -/
def follow (after : List Char) : Follow :=
  match Text.trimStart after with
  | '=' :: rest => match Text.trimStart rest with
    | [] => .value none
    | quote :: rest => if isQuote quote then .value (quoted? (quote :: rest)) else .other
  | _ => .other

/-- The value of the first attribute of a name in the text of a tag. The name counts only right
after a blank. -/
def attribute? (name tag : List Char) : Option (List Char) :=
  match Text.cut name tag with
  | none => none
  | some (before, after) =>
      let found := if before.getLast?.any Text.isBlank then follow after else .other
      match found with
      | .value value => value
      | .other =>
          -- The text gets shorter by the name, which is not empty.
          if after.length < tag.length then attribute? name after else none
  termination_by tag.length

/-- A number of pixels, rounded to a 32-bit word. -/
def pixels (x : Binary64) : Nat := x.toNatRounded Text.word32Max

/-- A length in pixels, with or without its unit. -/
def length? (value : List Char) : Option Nat :=
  let value := Text.trim value
  let number := (Text.stripBack? "px".toList value).getD value
  (Decimal.read? number).bind fun x =>
    if x.isFinite && x.isNonnegative then some (pixels x) else none

/-- The size of a view box: the last two of its four numbers. -/
def viewBox? (value : List Char) : Option (Nat × Nat) := do
  let numbers ← (Text.fields (fun c => Text.isBlank c || c = ',') value).mapM Decimal.read?
  match numbers with
  | [_, _, width, height] =>
      if width.isNonnegative && height.isNonnegative then some (pixels width, pixels height)
      else none
  | _ => none

def size (tag : List Char) : Nat × Nat :=
  let width := (attribute? "width".toList tag).bind length?
  let height := (attribute? "height".toList tag).bind length?
  match width, height with
  | some width, some height => (width, height)
  | _, _ => ((attribute? "viewBox".toList tag).bind viewBox?).getD (0, 0)

def rootOpening : List Char := "<svg".toList

def probe (bytes : Bytes) (complete : Bool) : Except DecodeError (Option ImageInfo) :=
  let missing (fault : ImageFault) : Except DecodeError (Option ImageInfo) :=
    if complete then .error (.corrupt fault) else .ok none
  match Text.cut rootOpening (Utf8.toLenientText bytes) with
  | none => missing .noRoot
  | some (_, rest) => match Text.splitFirst '>' (rootOpening ++ rest) with
    | none => missing .unterminatedRoot
    | some (tag, _) =>
        let (width, height) := size tag
        .ok (some ⟨width, height, ImageInfo.svgMime⟩)

end ExtensionLint.Svg
