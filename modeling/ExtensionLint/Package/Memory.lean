import ExtensionLint.Ordered
import ExtensionLint.Package.Basic
/-!
Packages built file by file. Adding a file adds the directories on its way; a directory may also be
added by itself, which adds only that one. A file and a directory may have the same listed path.
-/

namespace ExtensionLint

/-- Files and directories by their canonical paths. -/
structure MemoryPackage where
  files : List (String × Bytes)
  /-- The directories, each with a slash at the end. -/
  directories : List String
  deriving DecidableEq, Repr

namespace MemoryPackage

def empty : MemoryPackage := ⟨[], []⟩

/-- Adds a file, in the place of an earlier one of its path, and the directories on its way. -/
def withFile (package : MemoryPackage) (path : String) (content : Bytes) : MemoryPackage :=
  let path := PackagePath.normalize path
  { files := Ordered.put path content package.files
    directories := (PackagePath.parents path.toList).foldl
      (fun made parent => Ordered.insert (String.ofList parent) made) package.directories }

def withDirectory (package : MemoryPackage) (path : String) : MemoryPackage :=
  let path := PackagePath.dropTrailing (PackagePath.normalize path).toList
  { package with
    directories := Ordered.insert (String.ofList (path ++ ['/'])) package.directories }

def paths (package : MemoryPackage) : List String :=
  (package.files.map Prod.fst ++ package.directories).mergeSort fun a b => a ≤ b

def has (package : MemoryPackage) (path : String) : Bool :=
  let path := PackagePath.normalize path
  (package.files.lookup path).isSome || package.directories.contains path

def content? (package : MemoryPackage) (path : String) : Option Bytes :=
  package.files.lookup (PackagePath.normalize path)

def toPackage (package : MemoryPackage) : Package :=
  { paths := package.paths
    has := package.has
    content? := package.content? }

/-- The package of given files, then given directories. -/
def ofLists (files : List (String × Bytes)) (directories : List String) : MemoryPackage :=
  let package := files.foldl (fun made (path, content) => made.withFile path content) empty
  directories.foldl withDirectory package

end MemoryPackage
end ExtensionLint
