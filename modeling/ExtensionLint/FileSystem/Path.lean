import ExtensionLint.Text.Pieces
/-!
Paths of files on a disk. Components stand between slashes, and a path that starts with a slash
starts at the root. Paths are joined and cut as text; nothing is looked up.
-/

namespace ExtensionLint.DiskPath

def components (path : String) : List String :=
  (Text.splitBy (· == '/') path.toList).map String.ofList

def isAbsolute (path : String) : Bool := Text.startsWith ['/'] path.toList

/-- A path as seen from a directory. An absolute path stays as it is. -/
def join (base path : String) : String :=
  if isAbsolute path then path
  else if base = "" || Text.endsWith ['/'] base.toList then base ++ path
  else base ++ "/" ++ path

/-- Removes slashes and current directories at the end of a path, given in reverse. -/
def dropReversedEnding : List Char → List Char
  | '/' :: rest => dropReversedEnding rest
  | '.' :: '/' :: rest => dropReversedEnding rest
  | s => s

def dropEnding (path : List Char) : List Char := (dropReversedEnding path.reverse).reverse

def parent (path : String) : String :=
  match Text.splitLast '/' path.toList with
  | none => ""
  | some (above, _) => match dropEnding above with
    | [] => if isAbsolute path then "/" else ""
    | above => String.ofList above

/-- A path without superfluous slashes and current directories. A slash at the end stays. -/
def tidy (path : String) : String :=
  let names := (components path).filter fun name => name != "" && name != "."
  (if isAbsolute path then "/" else "") ++ String.intercalate "/" names ++
    if Text.endsWith ['/'] path.toList then "/" else ""

end ExtensionLint.DiskPath
