import ExtensionLint.Configuration.Basic
import ExtensionLint.FileSystem.Basic
/-!
Configurations in files. A directory may hold a configuration under one of two names. Relative paths
in a configuration start from the directory of its file.
-/

namespace ExtensionLint.Configuration

variable {m : Type → Type} [Monad m]

/-- The name of a configuration that a user starts from. -/
def fileName : String := ".addonlint.jsonc"

def fileNames : List String := [fileName, ".addonlint.json"]

/-- The path of the configuration in a directory, if it holds one. -/
def discover (fs : FileSystem m) (directory : String) : m (Option String) := do
  let found ← fileNames.filterM fun name => fs.isFile (DiskPath.join directory name)
  return found.head?.map (DiskPath.join directory)

def load (fs : FileSystem m) (path : String) : m (Except Error Configuration) := do
  match ← fs.readText path with
  | .error e => return .error (.unreadable e.message)
  | .ok text => return (ofText text).map fun configuration =>
      { configuration with baseDirectory := some (DiskPath.parent path) }

end ExtensionLint.Configuration
