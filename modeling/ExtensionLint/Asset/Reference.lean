import ExtensionLint.Manifest.Basic
import ExtensionLint.Ordered
import ExtensionLint.Package.Path
/-!
The images that a manifest refers to. Icons are declared in several places and forms; declarations
of one path, in whatever spelling, are one reference with all their sizes. Images of a theme are
listed as they are declared.
-/

namespace ExtensionLint

/-- An icon with the sizes for which it is declared. -/
structure IconReference where
  path : String
  sizes : List Nat
  deriving DecidableEq, Repr

/-- An image of a theme. -/
structure ThemeImageReference where
  property : String
  path : String
  deriving DecidableEq, Repr

/-- One declaration of an icon. -/
structure IconDeclaration where
  path : String
  size : Option Nat
  deriving DecidableEq, Repr

namespace Asset

/-- The keys of actions, in the order in which icons are collected. -/
def actionKeys : List String := ["browser_action", "page_action", "action"]

/-- The declarations of a value: one path, or an object of paths by size. -/
def declarationsOf : Json → List IconDeclaration
  | .string path => [⟨path, none⟩]
  | .object members => members.filterMap fun (size, path) =>
      path.string?.map fun path => ⟨path, Text.natural? Text.word32Max size.toList⟩
  | _ => []

/-- The declared size of an icon for light and dark themes, if it fits a 32-bit word. -/
def themeIconSize? (entry : Json) : Option Nat :=
  ((entry.get? "size").bind Json.nat?).filter fun size => size ≤ Text.word32Max

def themeIconDeclarations (entry : Json) : List IconDeclaration :=
  ["light", "dark"].filterMap fun variant =>
    ((entry.get? variant).bind Json.string?).map fun path => ⟨path, themeIconSize? entry⟩

def actionDeclarations (action : Json) : List IconDeclaration :=
  ((action.get? "default_icon").map declarationsOf).getD [] ++
    (((action.get? "theme_icons").bind Json.items?).getD []).flatMap themeIconDeclarations

/-- The declarations of a manifest, in the order in which they are collected. -/
def iconDeclarations (manifest : Manifest) : List IconDeclaration :=
  ((manifest.get? "icons").map declarationsOf).getD [] ++
    actionKeys.flatMap fun key => ((manifest.get? key).map actionDeclarations).getD []

def addSize (size : Option Nat) (sizes : List Nat) : List Nat :=
  match size with
  | some n => if sizes.contains n then sizes else sizes ++ [n]
  | none => sizes

def group (declarations : List IconDeclaration) : List (String × List Nat) :=
  declarations.foldl (fun made declaration =>
    Ordered.update (PackagePath.normalize declaration.path) [] (addSize declaration.size) made) []

/-- The icons of a manifest, in ascending order of their paths. -/
def icons (manifest : Manifest) : List IconReference :=
  (group (iconDeclarations manifest)).map fun (path, sizes) => ⟨path, sizes⟩

/-- The paths of a theme property: one, or a list. -/
def themePaths : Json → List String
  | .string path => [path]
  | value => value.strings

def themeImages (manifest : Manifest) : List ThemeImageReference :=
  (((manifest.pointer? "/theme/images").bind Json.members?).getD []).flatMap fun (key, value) =>
    (themePaths value).map fun path =>
      ⟨"theme.images." ++ key, PackagePath.normalize path⟩

end Asset
end ExtensionLint
