import ExtensionLint.FileTree
import ExtensionLint.Package.Basic
/-!
Packages unpacked in a directory. The directory is listed once. A file is opened only where the
canonical spelling of a path is listed, and then by that spelling.
-/

namespace ExtensionLint

/-- The path of a file or directory in a listing, given the names that lead to it. -/
def FileTree.listedPath (names : List String) (entry : FileTree) : String :=
  String.intercalate "/" names ++ if entry.isDirectory then "/" else ""

/-- A directory with the listing of what is inside. -/
structure DirectoryPackage where
  root : FileTree
  /-- The paths of all files and directories, in ascending order. -/
  entries : List String

namespace DirectoryPackage

/-- Lists the files and directories of a tree. -/
def ofTree (tree : FileTree) : DirectoryPackage :=
  { root := tree
    entries := Ordered.ofList (tree.walk.map fun (names, entry) => entry.listedPath names) }

def has (package : DirectoryPackage) (path : String) : Bool :=
  package.entries.contains (PackagePath.normalize path)

/-- The path that is opened below the root to read the file of a path, if there is one. -/
def opened? (package : DirectoryPackage) (path : String) : Option String :=
  let path := PackagePath.normalize path
  if !package.entries.contains path || Text.endsWith ['/'] path.toList then none else some path

def content? (package : DirectoryPackage) (path : String) : Option Bytes :=
  (package.opened? path).bind fun path => match package.root.resolve path with
    | .ok (.file content) => some content
    -- Does not happen: what is listed without a slash at the end is a file.
    | _ => none

def toPackage (package : DirectoryPackage) : Package :=
  { paths := package.entries
    has := package.has
    content? := package.content? }

end DirectoryPackage

def FileTree.toPackage (tree : FileTree) : Package := (DirectoryPackage.ofTree tree).toPackage

end ExtensionLint
