import ExtensionLint.FileSystem.Basic
/-!
A tree of files as a file system. The root of the tree is the working directory; files are made and
removed there only.
-/

namespace ExtensionLint

namespace FileTree

def PathError.toFileError : PathError → FileError
  | missing => .missing
  | throughFile => .notDirectory

def readFile (tree : FileTree) (path : String) : Except FileError Bytes :=
  match tree.resolve path with
  | .ok (.file content) => .ok content
  | .ok (.directory _) => .error .isDirectory
  | .error e => .error e.toFileError

def createFile (tree : FileTree) (name : String) (content : Bytes) : Except FileError FileTree :=
  match tree.entries.lookup name with
  | some _ => .error .present
  | none => .ok (put (.file content) [name] tree)

def removeFile (tree : FileTree) (name : String) : Except FileError FileTree :=
  match tree.entries.lookup name with
  | some (.file _) => .ok (remove [name] tree)
  | some (.directory _) => .error .isDirectory
  | none => .error .missing

end FileTree

namespace FileSystem

def changeTree (change : FileTree → Except FileError FileTree) :
    StateM FileTree (Except FileError Unit) := do
  match change (← get) with
  | .ok tree =>
      set tree
      return .ok ()
  | .error e => return .error e

/-- A tree of files as a file system. -/
def ofTree : FileSystem (StateM FileTree) where
  isFile path := return match (← get).resolve path with
    | .ok entry => entry.isFile
    | .error _ => false
  read path := return (← get).readFile path
  directory? path := return match (← get).resolve path with
    | .ok entry => if entry.isDirectory then some entry else none
    | .error _ => none
  create name content := changeTree fun tree => tree.createFile name content
  remove name := changeTree fun tree => tree.removeFile name

end FileSystem
end ExtensionLint
