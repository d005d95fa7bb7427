import ExtensionLint.FileTree
/-!
File systems as the command line needs them: a record of operations in any monad. The program is
written over this record, so it runs over the disk and over a tree of files alike.
-/

namespace ExtensionLint

/-- Why a file cannot be read or changed. -/
inductive FileError where
  | missing
  /-- There is a file of that name already. -/
  | present
  | notDirectory
  | isDirectory
  | notText
  | other (reason : String)
  deriving DecidableEq, Repr

def FileError.message : FileError → String
  | missing => "No such file or directory (os error 2)"
  | present => "File exists (os error 17)"
  | notDirectory => "Not a directory (os error 20)"
  | isDirectory => "Is a directory (os error 21)"
  | notText => "stream did not contain valid UTF-8"
  | other reason => reason

/-- The operations of a file system. -/
structure FileSystem (m : Type → Type) where
  isFile : String → m Bool
  read : String → m (Except FileError Bytes)
  /-- A directory with everything inside, if the path leads to one. -/
  directory? : String → m (Option FileTree)
  create : String → Bytes → m (Except FileError Unit)
  remove : String → m (Except FileError Unit)

namespace FileSystem

variable {m : Type → Type} [Monad m]

def readText (fs : FileSystem m) (path : String) : m (Except FileError String) := do
  match ← fs.read path with
  | .error e => return .error e
  | .ok bytes => match Utf8.toText bytes with
    | .ok text => return .ok (String.ofList text)
    | .error _ => return .error .notText

end FileSystem
end ExtensionLint
