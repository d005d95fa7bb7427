import ExtensionLint.Asset.Reference
import ExtensionLint.Image.Basic
import ExtensionLint.Log
import ExtensionLint.Catalog
/-!
The checks of referenced images. Checking one reference gives a list of findings that depends on
nothing but the reference and the package; the log takes those whose code and file are new. So the
references can be checked in any order.
-/

namespace ExtensionLint.Asset

/-- What the checks depend on. -/
structure Checker where
  package : Package
  decoder : ImageDecoder
  catalog : Catalog

def iconExtensions : List String := ["jpg", "jpeg", "webp", "gif", "png", "svg"]

/-- The extensions that an image of a theme may have, each with its media type. -/
def themeTypes : List (String × String) :=
  [("jpg", "image/jpeg"), ("jpeg", "image/jpeg"), ("gif", "image/gif"), ("png", "image/png")]

/-- The media type that the extension of a theme image stands for. -/
def expectedMime? (path : String) : Option String :=
  (PackagePath.extension? path).bind fun extension => themeTypes.lookup extension

def hasIconExtension (path : String) : Bool :=
  (PackagePath.extension? path).any iconExtensions.contains

namespace Checker

def decode (checker : Checker) (path : String) : Except DecodeError ImageInfo :=
  match checker.package.read path with
  | .error cause => .error (.unreadable cause)
  | .ok bytes => checker.decoder.read bytes

def finding (checker : Checker) (code : Code) (values : List (String × String))
    (path : String) : Diagnostic :=
  (checker.catalog.render code values).withFile path

/-- The findings about an icon that is not square. A vector image may be drawn in any shape, so it
only gives a warning. -/
def shapeFindings (checker : Checker) (path : String) (info : ImageInfo) : List Diagnostic :=
  if info.isSquare then []
  else
    let finding := checker.finding .iconNotSquare [("path", path)] path
    [if info.isSvg then finding.withSeverity .warning else finding]

/-- The declared sizes that an image does not have, in ascending order. -/
def mismatches (sizes : List Nat) (info : ImageInfo) : List Nat :=
  (sizes.filter fun size => size != info.width).mergeSort fun a b => a ≤ b

/-- The findings about an icon whose size is not as declared. A vector image has every size. -/
def sizeFindings (checker : Checker) (icon : IconReference) (info : ImageInfo) :
    List Diagnostic :=
  if info.isSvg then []
  else match mismatches icon.sizes info with
    | [] => []
    | sizes => [checker.finding .iconSizeInvalid
        [("path", icon.path), ("expected", String.intercalate ", " (sizes.map toString)),
          ("actual", toString info.width)] icon.path]

def checkIcon (checker : Checker) (icon : IconReference) : List Diagnostic :=
  let path := icon.path
  if !checker.package.has path then
    [checker.finding .manifestIconNotFound [("path", path)] path]
  else if !hasIconExtension path then
    [checker.finding .wrongIconExtension [("path", path)] path]
  else match checker.decode path with
    | .error _ => [checker.finding .corruptIconFile [("path", path)] path]
    | .ok info => checker.shapeFindings path info ++ checker.sizeFindings icon info

/-- The findings about a theme image whose real format is known. -/
def mimeFindings (checker : Checker) (path expected mime : String) : List Diagnostic :=
  let values := [("path", path), ("mime", mime)]
  if !themeTypes.any (fun (_, known) => known == mime) then
    [checker.finding .manifestThemeImageWrongMime values path]
  else if mime != expected then
    [checker.finding .manifestThemeImageMimeMismatch values path]
  else []

def checkThemeImage (checker : Checker) (image : ThemeImageReference) : List Diagnostic :=
  let path := image.path
  if !checker.package.has path then
    [checker.finding .manifestThemeImageNotFound
      [("property", image.property), ("path", path)] path]
  else match expectedMime? path with
    | none => [checker.finding .manifestThemeImageWrongExt [("path", path)] path]
    | some expected => match checker.decode path with
      | .error _ => [checker.finding .manifestThemeImageCorrupted [("path", path)] path]
      | .ok info => checker.mimeFindings path expected info.mime

def checkIcons (checker : Checker) (icons : List IconReference) (log : Log) : Log :=
  icons.foldl (fun log icon => log.addAllNew (checker.checkIcon icon)) log

def checkThemeImages (checker : Checker) (images : List ThemeImageReference) (log : Log) : Log :=
  images.foldl (fun log image => log.addAllNew (checker.checkThemeImage image)) log

end Checker
end ExtensionLint.Asset
