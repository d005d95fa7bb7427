import ExtensionLint.Package.Basic
/-!
Images. Only the geometry and the real format of an image are wanted, and both stand near its start,
so a decoder looks at more and more of the bytes until it has an answer. On part of the bytes it may
ask for more; on all of them it must decide.
-/

namespace ExtensionLint

/-- The geometry and the real format of an image. -/
structure ImageInfo where
  width : Nat
  height : Nat
  mime : String
  deriving DecidableEq, Repr

namespace ImageInfo

def svgMime : String := "image/svg+xml"

def isSvg (info : ImageInfo) : Bool := info.mime = svgMime

def isSquare (info : ImageInfo) : Bool := info.width = info.height

end ImageInfo

/-- What is wrong with the bytes of an image. -/
inductive ImageFault where
  | empty
  | cutShort
  /-- The header does not lead to a size. -/
  | noSize
  | unknownChunk
  | noDirectory
  | unknownEntryType
  /-- No entries of a TIFF file give the size. -/
  | noDimensions
  | widthTooLarge
  | heightTooLarge
  | noRoot
  | unterminatedRoot
  | undecided
  deriving DecidableEq, Repr

def ImageFault.message : ImageFault → String
  | empty => "empty file"
  | cutShort => "failed to fill whole buffer"
  | noSize => "Hit end of file before finding size"
  | unknownChunk => "Invalid VP8 Tag"
  | noDirectory => "Invalid IFD offset"
  | unknownEntryType => "Invalid IFD type"
  | noDimensions => "No dimensions in IFD tags"
  | widthTooLarge => "width out of range"
  | heightTooLarge => "height out of range"
  | noRoot => "no <svg> root element"
  | unterminatedRoot => "unterminated <svg> element"
  | undecided => "could not read image header"

/-- Why an image cannot be decoded. -/
inductive DecodeError where
  | unreadable (cause : Package.ReadError)
  | unsupported
  | corrupt (fault : ImageFault)
  deriving DecidableEq, Repr

def DecodeError.message : DecodeError → String
  | unreadable cause => "failed to read image: " ++ cause.message
  | unsupported => "unsupported image format"
  | corrupt fault => "corrupt image: " ++ fault.message

/-- A way to find the geometry of images. -/
structure ImageDecoder where
  /-- Looks at bytes and at whether they are all there will be. No answer asks for more bytes. -/
  probe : Bytes → Bool → Except DecodeError (Option ImageInfo)

namespace ImageDecoder

/-- How many bytes are read at a time. -/
def chunkSize : Nat := 4096

def conclude (decoder : ImageDecoder) (bytes : Bytes) : Except DecodeError ImageInfo :=
  match decoder.probe bytes true with
  | .error e => .error e
  | .ok (some info) => .ok info
  | .ok none => .error (.corrupt .undecided)

/-- Reads on when so many bytes have been seen without an answer. -/
def readFrom (decoder : ImageDecoder) (bytes : Bytes) (seen : Nat) :
    Except DecodeError ImageInfo :=
  if seen < bytes.length then
    match decoder.probe (bytes.take (seen + chunkSize)) false with
    | .error e => .error e
    | .ok (some info) => .ok info
    | .ok none => readFrom decoder bytes (seen + chunkSize)
  else decoder.conclude bytes
  termination_by bytes.length - seen
  decreasing_by simp only [chunkSize]; omega

/-- Reads an image chunk by chunk until the decoder answers. -/
def read (decoder : ImageDecoder) (bytes : Bytes) : Except DecodeError ImageInfo :=
  decoder.readFrom bytes 0

end ImageDecoder
end ExtensionLint
