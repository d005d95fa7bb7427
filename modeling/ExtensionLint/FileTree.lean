import ExtensionLint.FileSystem.Path
import ExtensionLint.Ordered
import ExtensionLint.Text.Utf8
/-!
Trees of files. A directory has entries in ascending order of their names. Paths go through a tree
by their components; empty components and the current directory are passed over, and the parent
directory leads back.
-/

namespace ExtensionLint

/-- A file or a directory. -/
inductive FileTree where
  | file (content : Bytes)
  | directory (entries : List (String × FileTree))

namespace FileTree

def empty : FileTree := .directory []

def entries : FileTree → List (String × FileTree)
  | .file _ => []
  | .directory entries => entries

def isDirectory : FileTree → Bool
  | .file _ => false
  | .directory _ => true

def isFile (tree : FileTree) : Bool := !tree.isDirectory

mutual

/-- The files and directories inside, each with the names that lead to it, in order of the
entries. -/
def walk : FileTree → List (List String × FileTree)
  | .file _ => []
  | .directory entries => walkEntries entries

def walkEntries : List (String × FileTree) → List (List String × FileTree)
  | [] => []
  | (name, entry) :: rest =>
      ([name], entry) :: ((walk entry).map fun (names, inside) => (name :: names, inside))
        ++ walkEntries rest

end

/-- The file or directory along a list of names. -/
def descend? (tree : FileTree) : List String → Option FileTree
  | [] => some tree
  | name :: rest => (tree.entries.lookup name).bind fun entry => entry.descend? rest

/-- Puts a tree at the end of a list of names. Directories on the way are made; a file on the way is
replaced. -/
def put (content : FileTree) : List String → FileTree → FileTree
  | [], _ => content
  | name :: rest, tree =>
      .directory (Ordered.update name empty (put content rest) tree.entries)

/-- Makes a directory at the end of a list of names, unless it is there. -/
def makeDirectory (names : List String) (tree : FileTree) : FileTree :=
  match tree.descend? names with
  | some (.directory _) => tree
  | _ => put empty names tree

def remove : List String → FileTree → FileTree
  | _, .file content => .file content
  | [], tree => tree
  | [name], .directory entries => .directory (entries.filter fun entry => entry.1 != name)
  | name :: rest, .directory entries =>
      .directory (entries.map fun (other, entry) =>
        if other = name then (other, remove rest entry) else (other, entry))

/-- Why a path leads nowhere. -/
inductive PathError where
  | missing
  | throughFile
  deriving DecidableEq, Repr

/-- Follows components from a place that is given by the directories above it, the nearest one
first. The end is the place of the last component. -/
def follow (above : List FileTree) (here : FileTree) : List String → Except PathError FileTree
  | [] => .ok here
  | name :: rest =>
      if !here.isDirectory then .error .throughFile
      else if name = "" || name = "." then follow above here rest
      else if name = ".." then match above with
        | parent :: above => follow above parent rest
        | [] => .error .missing
      else match here.entries.lookup name with
        | some entry => follow (here :: above) entry rest
        | none => .error .missing

/-- The file or directory that a relative path leads to. An absolute path leads out of the tree. -/
def resolve (tree : FileTree) (path : String) : Except PathError FileTree :=
  match path.toList with
  | [] => .error .missing
  | '/' :: _ => .error .missing
  | _ => follow [] tree (DiskPath.components path)

end FileTree
end ExtensionLint
