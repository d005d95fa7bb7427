import ExtensionLint.CommandLine.Run
/-!
The program on the disk. A path is taken as an entry of the working directory.
-/

namespace ExtensionLint.Disk

/-- The error of an operation on the disk. -/
def fileError : IO.Error → FileError
  | .noFileOrDirectory .. => .missing
  | .alreadyExists .. => .present
  | e => .other (toString e)

def attempt {α : Type} (action : IO α) : IO (Except FileError α) := do
  try
    return .ok (← action)
  catch e => return .error (fileError e)

def place (path : String) : IO.FS.DirEntry := ⟨".", path⟩

def typeOf? (path : String) : IO (Option IO.FS.FileType) := do
  match ← attempt (place path).path.metadata with
  | .ok metadata => return some metadata.type
  | .error _ => return none

def read (path : String) : IO (Except FileError Bytes) := do
  if (← typeOf? path) matches some .dir then return .error .isDirectory
  attempt do return (← IO.FS.readBinFile path).data.toList

/-- The deepest nesting of directories that is looked into. -/
def deepest : Nat := 4096

/-- What is at a place, links to directories not being followed. A file that cannot be read counts
as empty. -/
def load : Nat → IO.FS.DirEntry → IO FileTree
  | 0, _ => return .empty
  | depth + 1, entry => do
      let metadata ← entry.path.symlinkMetadata
      if metadata.type matches .dir then
        let found ← (← entry.path.readDir).toList.mapM fun inside => do
          return (inside.fileName, ← load depth inside)
        return .directory (found.foldl (fun made (name, tree) => Ordered.put name tree made) [])
      else match ← attempt (IO.FS.readBinFile entry.path) with
        | .ok bytes => return .file bytes.data.toList
        | .error _ => return .file []

/-- The directory of a path with everything inside. -/
def directory? (path : String) : IO (Option FileTree) := do
  if (← typeOf? path) matches some .dir then return some (← load deepest ⟨path, "."⟩)
  else return none

def fileSystem : FileSystem IO where
  isFile path := return (← typeOf? path) matches some .file
  read := read
  directory? := directory?
  create path content := attempt do
    let handle ← IO.FS.Handle.mk path .writeNew
    handle.write ⟨content.toArray⟩
  remove path := attempt (IO.FS.removeFile path)

end ExtensionLint.Disk

def main (arguments : List String) : IO UInt32 := do
  let outcome ← ExtensionLint.CommandLine.run ExtensionLint.Disk.fileSystem arguments
  IO.print outcome.output
  IO.eprint outcome.complaint
  return outcome.code.toUInt32
