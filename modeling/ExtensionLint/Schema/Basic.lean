import ExtensionLint.Issue.Basic
import ExtensionLint.Json.Printer
/-!
Schemas for JSON values. A schema is built from single demands; each demand looks only at values of
the type it is about and passes over all others. Checking a value lists every violation, demand by
demand in the order in which the schema has them, members in the order of their names and items by
index.
-/

namespace ExtensionLint

namespace Schema

/-- A type of JSON values. -/
inductive Kind where
  | null
  | boolean
  | integer
  | number
  | string
  | array
  | object
  deriving DecidableEq, Repr

def Kind.name : Kind → String
  | null => "null"
  | boolean => "boolean"
  | integer => "integer"
  | number => "number"
  | string => "string"
  | array => "array"
  | object => "object"

/-- The types in the order of their names. -/
def Kind.all : List Kind := [array, boolean, integer, null, number, object, string]

def Kind.ofName? (text : String) : Option Kind := all.find? fun kind => kind.name == text

/-- Whether a value is of a type. A number without a fraction is an integer however it is
written. -/
def Kind.admits : Kind → Json → Bool
  | null, .null => true
  | boolean, .bool _ => true
  | integer, .number (.integer _) => true
  | integer, .number (.float x) => x.isIntegral
  | number, .number _ => true
  | string, .string _ => true
  | array, .array _ => true
  | object, .object _ => true
  | _, _ => false

/-- What a value fails to be. -/
inductive Fault where
  | type (kinds : List Kind)
  | minimum (bound : Nat)
  | maximum (bound : Nat)
  | minLength (length : Nat)
  | required (name : String)
  | additionalProperties (name : String)
  | anyOf
  deriving DecidableEq, Repr

def Fault.keyword : Fault → String
  | type _ => "type"
  | minimum _ => "minimum"
  | maximum _ => "maximum"
  | minLength _ => "minLength"
  | required _ => "required"
  | additionalProperties _ => "additionalProperties"
  | anyOf => "anyOf"

def Fault.message (value : Json) : Fault → String
  | type kinds =>
      value.text ++ (if kinds.length = 1 then " is not of type " else " is not of types ") ++
        ", ".intercalate (kinds.map fun kind => "\"" ++ kind.name ++ "\"")
  | minimum bound => value.text ++ " is less than the minimum of " ++ toString bound
  | maximum bound => value.text ++ " is greater than the maximum of " ++ toString bound
  | minLength length =>
      value.text ++ " is shorter than " ++ toString length ++
        (if length = 1 then " character" else " characters")
  | required name => (Json.string name).text ++ " is a required property"
  | additionalProperties name =>
      "Additional properties are not allowed ('" ++ name ++ "' was unexpected)"
  | anyOf =>
      value.text ++ " is not valid under any of the schemas listed in the 'anyOf' keyword"

/-- A fault, the value at fault and where it is. -/
structure Violation where
  fault : Fault
  path : Json.Path
  value : Json
  deriving Repr

def Violation.message (violation : Violation) : String :=
  violation.fault.message violation.value

/-- The violation as an issue. A missing property is reported at the place where it should be. -/
def Violation.toIssue (violation : Violation) : Issue :=
  let pointer := violation.path.pointer
  match violation.fault with
  | .required name =>
      ⟨.required, Json.Path.ofPointer pointer ++ [.key name], none, violation.message⟩
  | .type _ => Issue.atPointer .type pointer (some violation.value) violation.message
  | fault =>
      Issue.atPointer (.other fault.keyword) pointer (some violation.value) violation.message

end Schema

/-- A schema. -/
inductive Schema where
  | type (kinds : List Schema.Kind)
  | minimum (bound : Nat)
  | maximum (bound : Nat)
  | minLength (length : Nat)
  | required (names : List String)
  /-- Demands something of each known property of an object. -/
  | properties (known : List (String × Schema))
  /-- Demands something of every property of an object. -/
  | values (schema : Schema)
  /-- Demands that an object has known properties only, each as described. -/
  | closed (known : List (String × Schema))
  /-- Demands something of every item of an array. -/
  | items (schema : Schema)
  | anyOf (options : List Schema)
  | all (parts : List Schema)

namespace Schema

def isBelow : Json.Number → Nat → Bool
  | .integer n, bound => n < bound
  | .float x, bound => x.ltNat bound

def isAbove : Json.Number → Nat → Bool
  | .integer n, bound => bound < n
  | .float x, bound => x.gtNat bound

mutual

/-- The violations of a schema by a value at a path. -/
def check (path : Json.Path) (value : Json) : Schema → List Violation
  | .type kinds =>
      if kinds.any fun kind => kind.admits value then [] else [⟨.type kinds, path, value⟩]
  | .minimum bound => match value with
    | .number n => if isBelow n bound then [⟨.minimum bound, path, value⟩] else []
    | _ => []
  | .maximum bound => match value with
    | .number n => if isAbove n bound then [⟨.maximum bound, path, value⟩] else []
    | _ => []
  | .minLength length => match value with
    | .string s => if s.length < length then [⟨.minLength length, path, value⟩] else []
    | _ => []
  | .required names => match value with
    | .object members =>
        (names.filter fun name => !Json.Members.has members name).map fun name =>
          ⟨.required name, path, value⟩
    | _ => []
  | .properties known => match value with
    | .object members => checkKnown path members known
    | _ => []
  | .values schema => match value with
    | .object members => members.flatMap fun (name, member) =>
        check (path ++ [.key name]) member schema
    | _ => []
  | .closed known => match value with
    | .object members => members.flatMap fun (name, member) =>
        checkClosed path value name member known
    | _ => []
  | .items schema => match value with
    | .array elements => elements.zipIdx.flatMap fun (item, position) =>
        check (path ++ [.index position]) item schema
    | _ => []
  | .anyOf options => if admitsAny path value options then [] else [⟨.anyOf, path, value⟩]
  | .all parts => checkAll path value parts

def checkKnown (path : Json.Path) (members : Json.Members) :
    List (String × Schema) → List Violation
  | [] => []
  | (name, schema) :: rest =>
      (match members.get? name with
        | some member => check (path ++ [.key name]) member schema
        | none => []) ++ checkKnown path members rest

/-- The violations of the demand on a property that must be known. -/
def checkClosed (path : Json.Path) (value : Json) (name : String) (member : Json) :
    List (String × Schema) → List Violation
  | [] => [⟨.additionalProperties name, path, value⟩]
  | (other, schema) :: rest =>
      if other = name then check (path ++ [.key name]) member schema
      else checkClosed path value name member rest

/-- Whether a value meets one of several demands. -/
def admitsAny (path : Json.Path) (value : Json) : List Schema → Bool
  | [] => false
  | schema :: rest => (check path value schema).isEmpty || admitsAny path value rest

def checkAll (path : Json.Path) (value : Json) : List Schema → List Violation
  | [] => []
  | schema :: rest => check path value schema ++ checkAll path value rest

end

def violations (schema : Schema) (value : Json) : List Violation := schema.check [] value

/-- A way to find violations in a document. -/
abbrev Validator := Json → List Violation

/-- The violations that a validator finds, as issues. -/
def Validator.issues (validator : Validator) (document : Json) : List Issue :=
  (validator document).map Violation.toIssue

def issues (schema : Schema) : Json → List Issue := Validator.issues schema.violations

def any : Schema := .all []

def distinctStrings? (elements : List Json) : Option (List String) := do
  let texts ← elements.mapM Json.string?
  if texts.Nodup then return texts else none

/-- Reads the types of which one is demanded: the name of one, or several names that all differ.
Types are kept in the order of their names. -/
def kinds? : Json → Option (List Kind)
  | .string name => (Kind.ofName? name).map fun kind => [kind]
  | .array elements => do
      let names ← distinctStrings? elements
      let kinds ← names.mapM Kind.ofName?
      if kinds.isEmpty then none else return Kind.all.filter kinds.contains
  | _ => none

/-- Reads the names of required properties, which all differ. -/
def requiredNames? (value : Json) : Option (List String) := value.items?.bind distinctStrings?

/-- The fewest described properties beside which a pair of required names is passed over. -/
def manyProperties : Nat := 15

/-- The names that are demanded of those required. Two names are no demand beside many described
properties; one name, or three and more, always are. -/
def demandedNames (names : List String) (known : List (String × Schema)) : List String :=
  if names.length = 2 && manyProperties ≤ known.length then [] else names

mutual

/-- Reads a schema written in JSON: true, or an object that may demand a type, required properties
and something of properties. -/
def ofJson? : Json → Option Schema
  | .bool true => some any
  | .object members => (ofMembers? members).map fun (kinds, names, known) =>
      .all (kinds.toList.map .type ++ [.required (demandedNames names known), .properties known])
  | _ => none

/-- Reads the demands of a schema that is written as an object. -/
def ofMembers? : List (String × Json) →
    Option (Option (List Kind) × List String × List (String × Schema))
  | [] => some (none, [], [])
  | (name, value) :: rest => do
      let (kinds, names, known) ← ofMembers? rest
      if name = "type" then return (some (← kinds? value), names, known)
      else if name = "required" then return (kinds, ← requiredNames? value, known)
      else if name = "properties" then
        match value with
        | .object fields => return (kinds, names, ← ofProperties? fields)
        | _ => none
      else return (kinds, names, known)

def ofProperties? : List (String × Json) → Option (List (String × Schema))
  | [] => some []
  | (name, value) :: rest => do
      let schema ← ofJson? value
      let known ← ofProperties? rest
      return (name, schema) :: known

end

end Schema
end ExtensionLint
