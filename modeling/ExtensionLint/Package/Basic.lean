import ExtensionLint.Package.Path
import ExtensionLint.Text.Utf8
/-!
Packages. The linter sees a package as a listing of paths and the contents of its files. Directories
are listed with a slash at the end; asking for a path, in any spelling, is asking for its canonical
spelling.
-/

namespace ExtensionLint

/-- The files of an add-on. -/
structure Package where
  /-- The paths of all files and directories, in ascending order. -/
  paths : List String
  /-- Whether there is a file or directory of a path. -/
  has : String → Bool
  /-- The contents of the file of a path, if there is one. -/
  content? : String → Option Bytes

namespace Package

/-- Why a file cannot be read. -/
inductive ReadError where
  | notFound (path : String)
  | notText (malformation : Utf8.Malformation)
  deriving DecidableEq, Repr

def ReadError.message : ReadError → String
  | notFound path => path ++ " is not in the package"
  | notText malformation => malformation.message

def read (package : Package) (path : String) : Except ReadError Bytes :=
  match package.content? path with
  | some bytes => .ok bytes
  | none => .error (.notFound (PackagePath.normalize path))

/-- Reads a file as text, without a byte order mark at its start. -/
def readText (package : Package) (path : String) : Except ReadError String :=
  match package.read path with
  | .error e => .error e
  | .ok bytes => match Utf8.toText (Utf8.stripMark bytes) with
    | .ok text => .ok (String.ofList text)
    | .error malformation => .error (.notText malformation)

end Package
end ExtensionLint
