import ExtensionLint.Numeric.Binary64
import ExtensionLint.Ordered
/-!
JSON values. An object is the list of its members in ascending order of their names, each name once,
so two objects with the same members are the same value. Names are ordered by code points, which is
also the order of their UTF-8 bytes.
-/

namespace ExtensionLint

/-- A JSON number: an integer of 64 bits, or a binary floating-point number. -/
inductive Json.Number where
  /-- An integer, at least -2 ^ 63 and below 2 ^ 64. -/
  | integer (value : Int)
  /-- Any other number, and every number written with a fraction or an exponent. -/
  | float (value : Binary64)
  deriving DecidableEq, Repr, Inhabited

/-- A JSON value. -/
inductive Json where
  | null
  | bool (value : Bool)
  | number (value : Json.Number)
  | string (value : String)
  | array (items : List Json)
  | object (members : List (String × Json))
  deriving Repr, Inhabited

namespace Json

abbrev Members := List (String × Json)

namespace Members

def get? (members : Members) (name : String) : Option Json := members.lookup name

def has (members : Members) (name : String) : Bool := (members.get? name).isSome

/-- Sets a member, at its place in the order. -/
def insert (name : String) (value : Json) (members : Members) : Members :=
  Ordered.put name value members

/-- Holds of members in ascending order of names that differ. -/
def Ascending (members : Members) : Prop := members.Pairwise fun a b => a.1 < b.1

instance (members : Members) : Decidable members.Ascending := by
  unfold Ascending
  infer_instance

theorem Ascending.insert {members : Members} {name : String} {value : Json}
    (h : members.Ascending) : (members.insert name value).Ascending :=
  Ordered.pairwise_put h

end Members

/-- Members that ascend. An object that is read or printed is made from nothing by setting one member
after the other, and setting a member keeps the order. -/
@[ext]
structure Object where
  members : Members
  ascending : members.Ascending

namespace Object

def empty : Object := ⟨[], .nil⟩

def insert (name : String) (value : Json) (object : Object) : Object :=
  ⟨object.members.insert name value, object.ascending.insert⟩

/-- Sets one member after the other. A later member replaces an earlier one of its name. -/
def insertAll (members : List (String × Json)) (object : Object) : Object :=
  members.foldl (fun made (name, value) => made.insert name value) object

def ofList (members : List (String × Json)) : Object := empty.insertAll members

def toJson (object : Object) : Json := .object object.members

end Object

mutual

/-- Holds of values in which the members of every object ascend. -/
def WellFormed : Json → Prop
  | .array items => WellFormedItems items
  | .object members => Members.Ascending members ∧ WellFormedMembers members
  | _ => True

def WellFormedItems : List Json → Prop
  | [] => True
  | item :: rest => WellFormed item ∧ WellFormedItems rest

def WellFormedMembers : List (String × Json) → Prop
  | [] => True
  | (_, value) :: rest => WellFormed value ∧ WellFormedMembers rest

end

/-- What holds of a value if it holds of its items, and of the values of its members, holds of every
value. -/
@[elab_as_elim]
theorem inductionOn {motive : Json → Prop} (value : Json) (null : motive .null)
    (bool : ∀ value, motive (.bool value)) (number : ∀ value, motive (.number value))
    (string : ∀ value, motive (.string value))
    (array : ∀ items, (∀ item ∈ items, motive item) → motive (.array items))
    (object : ∀ members : Members, (∀ member ∈ members, motive member.2) → motive (.object members)) :
    motive value :=
  match value with
  | .null => null
  | .bool value => bool value
  | .number value => number value
  | .string value => string value
  | .array items => array items fun item _ => inductionOn item null bool number string array object
  | .object members =>
      object members fun member _ => inductionOn member.2 null bool number string array object
termination_by sizeOf value
decreasing_by
  · have := List.sizeOf_lt_of_mem ‹item ∈ items›
    simp only [Json.array.sizeOf_spec]
    omega
  · obtain ⟨name, value⟩ := member
    have := List.sizeOf_lt_of_mem ‹(name, value) ∈ members›
    simp only [Json.object.sizeOf_spec, Prod.mk.sizeOf_spec] at this ⊢
    omega

def ofMembers (members : List (String × Json)) : Json := (Object.ofList members).toJson

def ofNat (n : Nat) : Json := .number (.integer n)

def ofOption : Option String → Json
  | some s => .string s
  | none => .null

/-- A member for a text that may be missing. -/
def textMember (name : String) : Option String → List (String × Json)
  | some s => [(name, .string s)]
  | none => []

def ofStrings (items : List String) : Json := .array (items.map .string)

def string? : Json → Option String
  | .string s => some s
  | _ => none

def bool? : Json → Option Bool
  | .bool b => some b
  | _ => none

/-- The value of an integer that is not negative. A number written with a fraction or an exponent is
no integer here, whatever its value. -/
def nat? : Json → Option Nat
  | .number (.integer (.ofNat n)) => some n
  | _ => none

def items? : Json → Option (List Json)
  | .array items => some items
  | _ => none

def members? : Json → Option Members
  | .object members => some members
  | _ => none

/-- The value of a member, when the value is an object that has it. -/
def get? (value : Json) (name : String) : Option Json :=
  value.members?.bind fun members => members.get? name

def isString (value : Json) : Bool := value.string?.isSome

/-- The strings among the items of an array; nothing for any other value. -/
def strings (value : Json) : List String := (value.items?.getD []).filterMap string?

/-- The strings among the items of an array that may be absent. -/
def stringsOf (value : Option Json) : List String := (value.map strings).getD []

@[simp] theorem string?_eq_some {value : Json} {s : String} :
    value.string? = some s ↔ value = .string s := by
  cases value <;> simp [string?]

@[simp] theorem members?_eq_some {value : Json} {members : Members} :
    value.members? = some members ↔ value = .object members := by
  cases value <;> simp [members?]

theorem mem_strings {value : Json} {s : String} :
    s ∈ value.strings ↔ ∃ items, value = .array items ∧ .string s ∈ items := by
  cases value <;> simp [strings, items?]

end Json
end ExtensionLint
