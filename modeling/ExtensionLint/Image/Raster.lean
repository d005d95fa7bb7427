import ExtensionLint.Image.Basic
import ExtensionLint.Text.Ascii
/-!
Headers of raster images. The format is told by the first bytes; each format then has the size at a
place of its own. Numbers are read from the front of what is left of the bytes, so that bytes that
end too early show at the number that is not there. A decoder works over any reader of headers.
-/

namespace ExtensionLint.Raster

/-- A format of raster images. -/
inductive Format where
  | jpeg
  | png
  | gif
  | tiff
  | webp
  | bmp
  | ico
  deriving DecidableEq, Repr

def Format.mime : Format → String
  | jpeg => "image/jpeg"
  | png => "image/png"
  | gif => "image/gif"
  | tiff => "image/tiff"
  | webp => "image/webp"
  | bmp => "image/bmp"
  | ico => "image/x-icon"

/-- How many bytes it takes to tell the format. -/
def signatureLength : Nat := 12

def hasAt (position : Nat) (expected bytes : Bytes) : Bool :=
  expected.isPrefixOf (bytes.drop position)

/-- The letters of an ASCII text as bytes. -/
def letters (text : String) : Bytes := text.toList.map fun c => UInt8.ofNat c.toNat

/-- The format that the first bytes show, if it is a known one. -/
def formatOf? (bytes : Bytes) : Option Format :=
  if hasAt 0 [0xFF, 0xD8, 0xFF] bytes then some .jpeg
  else if hasAt 0 [0x89, 0x50, 0x4E, 0x47] bytes then some .png
  else if hasAt 0 (letters "GIF8") bytes then some .gif
  else if hasAt 0 [0x49, 0x49, 0x2A, 0x00] bytes || hasAt 0 [0x4D, 0x4D, 0x00, 0x2A] bytes then
    some .tiff
  else if hasAt 0 (letters "RIFF") bytes && hasAt 8 (letters "WEBP") bytes then some .webp
  else if hasAt 4 (letters "ftyp") bytes then none
  else if hasAt 0 (letters "BM") bytes then some .bmp
  else if hasAt 0 [0x00, 0x00, 0x01, 0x00] bytes then some .ico
  else none

/-- The order of the bytes of a number. -/
inductive ByteOrder where
  | big
  | little
  deriving DecidableEq, Repr

/-- The number that bytes denote, the most significant one first. -/
def bigValue (bytes : Bytes) : Nat := bytes.foldl (fun value b => value * 256 + b.toNat) 0

def ByteOrder.value : ByteOrder → Bytes → Nat
  | big, bytes => bigValue bytes
  | little, bytes => bigValue bytes.reverse

abbrev Result (α : Type) := Except ImageFault α

def takeBytes (count : Nat) (bytes : Bytes) : Result (Bytes × Bytes) :=
  let taken := bytes.take count
  if taken.length = count then .ok (taken, bytes.drop count) else .error .cutShort

def takeNumber (order : ByteOrder) (count : Nat) (bytes : Bytes) : Result (Nat × Bytes) := do
  let (taken, rest) ← takeBytes count bytes
  return (order.value taken, rest)

def takePair (order : ByteOrder) (count : Nat) (bytes : Bytes) : Result (Nat × Nat) := do
  let (first, rest) ← takeNumber order count bytes
  let (second, _) ← takeNumber order count rest
  return (first, second)

/-- Whether a marker of a JPEG file starts a frame. -/
def startsFrame (marker : Nat) : Bool :=
  0xC0 ≤ marker && marker ≤ 0xCF && marker != 0xC4 && marker != 0xC8 && marker != 0xCC

/-- The size in a JPEG file, from a marker on. An embedded image lies between a start and an end
marker, and frames inside it do not count. -/
def jpegSize (depth : Nat) (bytes : Bytes) : Result (Nat × Nat) :=
  match bytes with
  | [] => .error .cutShort
  | [_] => .error .cutShort
  | lead :: marker :: rest =>
      let marker := marker.toNat
      if lead != 0xFF then .error .noSize
      else if startsFrame marker && depth = 0 then do
        let (height, width) ← takePair .big 2 (rest.drop 3)
        return (width, height)
      else if marker = 0xD9 && depth = 0 then .error .noSize
      else
        let depth := if marker = 0xD8 then depth + 1
          else if marker = 0xD9 then depth - 1 else depth
        -- The length counts its own two bytes, and a shorter one leads back to them.
        match takeNumber .big 2 rest with
        | .error fault => .error fault
        | .ok (length, _) => jpegSize depth (rest.drop length)
  termination_by bytes.length
  decreasing_by simp only [List.length_drop, List.length_cons]; omega

def pngSize (bytes : Bytes) : Result (Nat × Nat) := takePair .big 4 (bytes.drop 16)

def gifSize (bytes : Bytes) : Result (Nat × Nat) := takePair .little 2 (bytes.drop 6)

def bmpSize (bytes : Bytes) : Result (Nat × Nat) := takePair .little 4 (bytes.drop 18)

/-- The size in a WebP file, whose contents are lossy, lossless or extended. -/
def webpSize (bytes : Bytes) : Result (Nat × Nat) := do
  let (kind, _) ← takeNumber .big 1 (bytes.drop 15)
  if kind = 0x20 then takePair .little 2 (bytes.drop 26)
  else if kind = 0x4C then
    let (bits, _) ← takeNumber .little 4 (bytes.drop 21)
    return (bits % 0x4000 + 1, bits / 0x4000 % 0x4000 + 1)
  else if kind = 0x58 then
    let (width, height) ← takePair .little 3 (bytes.drop 24)
    return (width + 1, height + 1)
  else throw .unknownChunk

/-- A side of an icon, where zero stands for the size that a byte cannot hold. -/
def icoSide (n : Nat) : Nat := if n = 0 then 256 else n

/-- The sizes in the entries of an ICO file. An entry of 16 bytes starts with the size, and the last
one that is there may lack everything else. -/
def icoSizes : Nat → Bytes → List (Nat × Nat)
  | count + 1, width :: height :: rest =>
      (icoSide width.toNat, icoSide height.toNat) :: icoSizes count (rest.drop 14)
  | _, _ => []

/-- The largest of sizes by area, the last one if there are several. -/
def largest? : List (Nat × Nat) → Option (Nat × Nat)
  | [] => none
  | size :: rest => some (rest.foldl
      (fun best next => if best.1 * best.2 ≤ next.1 * next.2 then next else best) size)

/-- The size in an ICO file: that of its largest image. -/
def icoSize (bytes : Bytes) : Result (Nat × Nat) := do
  let (count, rest) ← takeNumber .little 2 (bytes.drop 4)
  match largest? (icoSizes count rest) with
  | some size => return size
  | none => throw .noSize

/-- How the value of an entry of a TIFF file is stored. -/
inductive EntryType where
  | short
  | long
  /-- Too long or too short to be a size. -/
  | other
  deriving DecidableEq, Repr

def EntryType.ofNumber? (n : Nat) : Option EntryType :=
  if [3, 8].contains n then some short
  else if [4, 9, 11, 13].contains n then some long
  else if [1, 2, 5, 6, 7, 10, 12, 16, 17, 18].contains n then some other
  else none

def EntryType.value? (order : ByteOrder) (bytes : Bytes) : EntryType → Option Nat
  | short => some (order.value (bytes.take 2))
  | long => some (order.value bytes)
  | other => none

/-- The size in the entries of a TIFF file, given what earlier entries said. A later entry replaces
an earlier one of its kind, and the first time that both sides are known ends the search. -/
def tiffEntries (order : ByteOrder) :
    Nat → Option Nat → Option Nat → Bytes → Result (Nat × Nat)
  | 0, _, _, _ => .error .noDimensions
  | count + 1, width, height, bytes => do
      let (tag, rest) ← takeNumber order 2 bytes
      let (number, rest) ← takeNumber order 2 rest
      let (_, rest) ← takeNumber order 4 rest
      match EntryType.ofNumber? number with
      | none => throw .unknownEntryType
      | some type =>
          let (held, rest) ← takeBytes 4 rest
          let value := type.value? order held
          let width := if tag = 0x100 then value else width
          let height := if tag = 0x101 then value else height
          match width, height with
          | some width, some height => return (width, height)
          | width, height => tiffEntries order count width height rest

def tiffSize (bytes : Bytes) : Result (Nat × Nat) := do
  let order : ByteOrder := if hasAt 0 (letters "II") bytes then .little else .big
  let (offset, _) ← takeNumber order 4 (bytes.drop 4)
  if offset = 0 then throw .noDirectory
  else
    let (count, rest) ← takeNumber order 2 (bytes.drop offset)
    tiffEntries order count none none rest

/-- The size in a file of a format, as width and height. -/
def size (bytes : Bytes) : Format → Result (Nat × Nat)
  | .jpeg => jpegSize 0 (bytes.drop 2)
  | .png => pngSize bytes
  | .gif => gifSize bytes
  | .tiff => tiffSize bytes
  | .webp => webpSize bytes
  | .bmp => bmpSize bytes
  | .ico => icoSize bytes

/-- A fault as an answer: a reason to read on, or an error when there is nothing left to read. -/
def answerFault (complete : Bool) (fault : ImageFault) :
    Except DecodeError (Option ImageInfo) :=
  if complete then .error (.corrupt fault) else .ok none

/-- What is told about the format of bytes. -/
inductive Recognition where
  | known (format : Format)
  /-- A format that has no media type here. -/
  | other
  | unsupported
  /-- Nothing yet, for a fault of the bytes. -/
  | fault (fault : ImageFault)
  deriving DecidableEq, Repr

def recognize (bytes : Bytes) : Recognition :=
  if bytes.length < signatureLength then .fault .cutShort
  else match formatOf? bytes with
    | none => .unsupported
    | some format => .known format

/-- A reader of the headers of raster images. -/
structure HeaderReader where
  recognize : Bytes → Recognition
  /-- The size in a file of a format, as width and height. -/
  size : Format → Bytes → Result (Nat × Nat)

namespace HeaderReader

def standard : HeaderReader := ⟨Raster.recognize, fun format bytes => Raster.size bytes format⟩

/-- What the bytes of a raster image show so far. -/
def probe (reader : HeaderReader) (bytes : Bytes) (complete : Bool) :
    Except DecodeError (Option ImageInfo) :=
  match reader.recognize bytes with
  | .unsupported => .error .unsupported
  | .other => .error .unsupported
  | .fault fault => answerFault complete fault
  | .known format => match reader.size format bytes with
    | .error fault => answerFault complete fault
    | .ok (width, height) =>
        if Text.word32Max < width then .error (.corrupt .widthTooLarge)
        else if Text.word32Max < height then .error (.corrupt .heightTooLarge)
        else .ok (some ⟨width, height, format.mime⟩)

end HeaderReader

end ExtensionLint.Raster
