import ExtensionLint.Json.Pointer
/-!
Paths inside a JSON value, as steps by name or by index. A path is written as a pointer. Reading a
pointer back takes every token that is a number for an index, so a member whose name is a number
comes back as an index.
-/

namespace ExtensionLint.Json

/-- One step of a path. -/
inductive Path.Step where
  | key (name : String)
  | index (position : Nat)
  deriving DecidableEq, Repr

abbrev Path := List Path.Step

namespace Path

def Step.write : Step → List Char
  | .key name => Pointer.escape name.toList
  | .index position => Nat.toDigits 10 position

def Step.ofToken (token : List Char) : Step :=
  match Pointer.looseIndex? token with
  | some position => .index position
  | none => .key (String.ofList (Pointer.unescape token))

/-- The text of a path as characters, a slash before each step. -/
def write (path : Path) : List Char := path.flatMap fun step => '/' :: step.write

def pointer (path : Path) : String := String.ofList path.write

/-- The path that a pointer denotes. What stands before the first slash is ignored. -/
def ofPointer (pointer : String) : Path :=
  ((Pointer.segments pointer).drop 1).map Step.ofToken

/-- The name of the first step, when the path starts at a member. -/
def topLevel? : Path → Option String
  | .key name :: _ => some name
  | _ => none

end Path
end ExtensionLint.Json
