import ExtensionLint.Json.Pointer
import ExtensionLint.Json.Strict
/-!
Compatibility data: since when browsers know the keys of a manifest. The data is a tree along the
keys; at each node there may be a statement of support. A node is made from an object of the data,
whose member `__compat` holds the statement and whose other objects are the children.
-/

namespace ExtensionLint

/-- One range of versions in which a browser knows a key. -/
structure SupportRange where
  /-- The version with which the range starts, if it is known. -/
  since : Option String
  deriving DecidableEq, Repr

/-- The ranges of each platform, the most relevant one first. -/
structure Support where
  desktop : List SupportRange
  android : List SupportRange
  deriving DecidableEq, Repr

namespace Support

def rangeOfJson (value : Json) : SupportRange :=
  ⟨(value.get? "version_added").bind Json.string?⟩

/-- The ranges of a platform: a list of entries, or one entry alone. -/
def rangesOfJson : Option Json → List SupportRange
  | some (.array entries) => entries.map rangeOfJson
  | some (.object members) => [rangeOfJson (.object members)]
  | _ => []

def ofJson (value : Json) : Support :=
  ⟨rangesOfJson (value.get? "firefox"), rangesOfJson (value.get? "firefox_android")⟩

def firstSince (ranges : List SupportRange) : Option String :=
  ranges.head?.bind SupportRange.since

end Support

/-- A tree of compatibility data. -/
inductive SupportTree where
  | leaf (support : Support)
  /-- A key with keys below, or without a statement. -/
  | node (support : Option Support) (children : List (String × SupportTree))

namespace SupportTree

/-- The member of the data that holds statements. -/
def statementKey : String := "__compat"

/-- The statement of support in the members of an object. -/
def statement? (members : Json.Members) : Option Support :=
  ((members.get? statementKey).bind fun value => value.get? "support").map Support.ofJson

/-- The node of a statement and children. A statement without children is a leaf. -/
def make (support : Option Support) (children : List (String × SupportTree)) : SupportTree :=
  match support, children with
  | some support, [] => .leaf support
  | support, children => .node support children

mutual

/-- The tree of a value, if it is an object. -/
def ofJson? : Json → Option SupportTree
  | .object members => some (make (statement? members) (childrenOf members))
  | _ => none

def childrenOf : List (String × Json) → List (String × SupportTree)
  | [] => []
  | (name, value) :: rest =>
      if name = statementKey then childrenOf rest
      else match ofJson? value with
        | some child => (name, child) :: childrenOf rest
        | none => childrenOf rest

end

def empty : SupportTree := .node none []

def support? : SupportTree → Option Support
  | .leaf support => some support
  | .node support _ => support

def children : SupportTree → List (String × SupportTree)
  | .leaf _ => []
  | .node _ children => children

def child? (tree : SupportTree) (name : String) : Option SupportTree :=
  tree.children.lookup name

def descend? (tree : SupportTree) : List String → Option SupportTree
  | [] => some tree
  | name :: rest => (tree.child? name).bind fun child => child.descend? rest

def isLeaf : SupportTree → Bool
  | .leaf _ => true
  | .node _ _ => false

/-- Whether a tree has no data to offer. -/
def isEmpty : SupportTree → Bool
  | .leaf _ => false
  | .node _ children => children.isEmpty

/-- Why compatibility data cannot be used. -/
inductive Error where
  | unreadable
  | malformed
  | notAnObject
  deriving DecidableEq, Repr

def notAnObjectMessage : String := "compatibility data must be a JSON object"

/-- The tree for the keys of manifests: of the whole data or of its part about manifests alone. -/
def ofData (data : Json) : Except Error SupportTree :=
  match ofJson? ((data.pointer? "/webextensions/manifest").getD data) with
  | some tree => .ok tree
  | none => .error .notAnObject

def ofText (text : String) : Except Error SupportTree :=
  match Json.Strict.read? text with
  | some data => ofData data
  | none => .error .malformed

end SupportTree
end ExtensionLint
