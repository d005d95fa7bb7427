import ExtensionLint.Image.Raster
import ExtensionLint.Image.Svg
/-!
The decoder that looks at headers. Text that starts like a vector image is read as one, and all else
as a raster image.
-/

namespace ExtensionLint.ImageDecoder

/-- What the bytes of an image show so far. -/
def probeHeader (reader : Raster.HeaderReader) (bytes : Bytes) (complete : Bool) :
    Except DecodeError (Option ImageInfo) :=
  if bytes.isEmpty then if complete then .error (.corrupt .empty) else .ok none
  else if Svg.isLikely bytes then Svg.probe bytes complete
  else reader.probe bytes complete

/-- The decoder over a reader of raster images. -/
def headerWith (reader : Raster.HeaderReader) : ImageDecoder := ⟨probeHeader reader⟩

def header : ImageDecoder := headerWith .standard

end ExtensionLint.ImageDecoder
