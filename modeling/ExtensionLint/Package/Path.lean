import ExtensionLint.Text.Pieces
/-!
Paths of files inside a package. A manifest may write a path in several ways; the canonical spelling
has slashes only and starts neither with a slash nor with the current directory. Nothing else is
resolved: a path with `..` or an empty component names whatever the package lists under that text.
-/

namespace ExtensionLint.PackagePath

def forwardSlashes (s : List Char) : List Char := s.map fun c => if c = '\\' then '/' else c

/-- Removes slashes and current directories at the front. -/
def dropLeading : List Char → List Char
  | '/' :: rest => dropLeading rest
  | '.' :: '/' :: rest => dropLeading rest
  | s => s

def normalize (path : String) : String :=
  String.ofList (dropLeading (forwardSlashes path.toList))

/-- The directories that a path goes through, each with its slash. -/
def parents : List Char → List (List Char)
  | [] => []
  | c :: rest =>
      let below := (parents rest).map (c :: ·)
      if c = '/' then [c] :: below else below

def dropTrailing (s : List Char) : List Char := (s.reverse.dropWhile (· == '/')).reverse

/-- The extension of the file's name, in small letters, if the name has a dot. -/
def extension? (path : String) : Option String :=
  let name := match Text.splitLast '/' path.toList with
    | some (_, name) => name
    | none => path.toList
  (Text.splitLast '.' name).map fun (_, extension) =>
    String.ofList (extension.map Char.toLower)

end ExtensionLint.PackagePath
