import ExtensionLint.Json.Basic
import ExtensionLint.Numeric.Shortest
/-!
Reading typed data from JSON values. A record is an object with named fields or, in the same order,
an array of the fields; fields that the record does not know are passed over. A choice among names
is a string or an object whose only member has that name and the value null.
-/

namespace ExtensionLint.Json

/-- Why a value is not data of a type. -/
inductive Mismatch where
  /-- A number with a fraction or an exponent where a natural number is needed. -/
  | fraction (x : Binary64)
  | shape
  deriving DecidableEq, Repr

def Mismatch.message : Mismatch → String
  | .fraction x => "invalid type: floating point \x60" ++ x.jsonText ++ "\x60, expected u64"
  | .shape => "unexpected value"

abbrev Decoded (α : Type) := Except Mismatch α

/-- The fields of a record. -/
inductive Record where
  | named (members : Members)
  | listed (items : List Json)
  deriving Repr

/-- Reads a record. As an array it has a number of fields within bounds. -/
def decodeRecord (least most : Nat) : Json → Decoded Record
  | .object members => .ok (.named members)
  | .array items =>
      if least ≤ items.length && items.length ≤ most then .ok (.listed items)
      else .error .shape
  | _ => .error .shape

def Record.field? (record : Record) (position : Nat) (name : String) : Option Json :=
  match record with
  | .named members => members.get? name
  | .listed items => items[position]?

def Record.require {α : Type} (record : Record) (position : Nat) (name : String)
    (decode : Json → Decoded α) : Decoded α :=
  match record.field? position name with
  | some value => decode value
  | none => .error .shape

/-- Reads a field that has a value of its own when it is not there. -/
def Record.getD {α : Type} (record : Record) (position : Nat) (name : String)
    (decode : Json → Decoded α) (standard : α) : Decoded α :=
  match record.field? position name with
  | some value => decode value
  | none => .ok standard

def decodeOption {α : Type} (decode : Json → Decoded α) : Json → Decoded (Option α)
  | .null => .ok none
  | value => (decode value).map some

def decodeString : Json → Decoded String
  | .string s => .ok s
  | _ => .error .shape

def decodeBool : Json → Decoded Bool
  | .bool b => .ok b
  | _ => .error .shape

def decodeNat : Json → Decoded Nat
  | .number (.integer (.ofNat n)) => .ok n
  | .number (.float x) => .error (.fraction x)
  | _ => .error .shape

def decodeList {α : Type} (decode : Json → Decoded α) : Json → Decoded (List α)
  | .array items => items.mapM decode
  | _ => .error .shape

def decodeChoice {α : Type} (find? : String → Option α) : Json → Decoded α
  | .string s => match find? s with
    | some a => .ok a
    | none => .error .shape
  | .object [(name, .null)] => match find? name with
    | some a => .ok a
    | none => .error .shape
  | _ => .error .shape

end ExtensionLint.Json
