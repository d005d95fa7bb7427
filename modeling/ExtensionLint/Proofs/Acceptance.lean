import ExtensionLint.Proofs.Members
import ExtensionLint.Proofs.NumberValue
import ExtensionLint.Schema.Configuration

/-!
Which values a schema accepts. A value is accepted when it has no violation, and where it stands does
not matter to that; so a list is accepted with its items and a closed record with its members, and
each demand can be read back from an accepted value.
-/

namespace ExtensionLint.Schema

mutual

/-- Whether a value has a violation does not depend on the path to it. -/
theorem check_eq_nil_congr (path other : Json.Path) (value : Json) :
    ∀ schema : Schema, check path value schema = [] ↔ check other value schema = []
  | .type kinds => by simp only [check]; split <;> simp
  | .minimum bound | .maximum bound | .minLength bound => by
      cases value with
      | number _ | string _ => simp only [check]; try split <;> simp
      | _ => exact Iff.rfl
  | .required names => by
      cases value with
      | object members => simp [check]
      | _ => exact Iff.rfl
  | .properties known => by
      cases value with
      | object members => exact checkKnown_eq_nil_congr path other members known
      | _ => exact Iff.rfl
  | .values schema => by
      cases value with
      | object members =>
          simp only [check, List.flatMap_eq_nil_iff]
          exact forall₂_congr fun member _ => check_eq_nil_congr _ _ member.2 schema
      | _ => exact Iff.rfl
  | .closed known => by
      cases value with
      | object members =>
          simp only [check, List.flatMap_eq_nil_iff]
          exact forall₂_congr fun member _ =>
            checkClosed_eq_nil_congr path other (.object members) member.1 member.2 known
      | _ => exact Iff.rfl
  | .items schema => by
      cases value with
      | array elements =>
          simp only [check, List.flatMap_eq_nil_iff]
          exact forall₂_congr fun entry _ => check_eq_nil_congr _ _ entry.1 schema
      | _ => exact Iff.rfl
  | .anyOf options => by
      simp only [check, admitsAny_congr path other value options]
      split <;> simp
  | .all parts => checkAll_eq_nil_congr path other value parts

theorem checkKnown_eq_nil_congr (path other : Json.Path) (members : Json.Members) :
    ∀ known, checkKnown path members known = [] ↔ checkKnown other members known = []
  | [] => Iff.rfl
  | (name, schema) :: rest => by
      simp only [checkKnown, List.append_eq_nil_iff, checkKnown_eq_nil_congr path other members rest]
      cases members.get? name with
      | none => exact Iff.rfl
      | some member =>
          exact and_congr_left' (check_eq_nil_congr _ _ member schema)

theorem checkClosed_eq_nil_congr (path other : Json.Path) (value : Json) (name : String)
    (member : Json) :
    ∀ known, checkClosed path value name member known = [] ↔
      checkClosed other value name member known = []
  | [] => by simp [checkClosed]
  | (key, schema) :: rest => by
      by_cases hkey : key = name
      · simp only [checkClosed, if_pos hkey]
        exact check_eq_nil_congr _ _ member schema
      · simp only [checkClosed, if_neg hkey]
        exact checkClosed_eq_nil_congr path other value name member rest

theorem admitsAny_congr (path other : Json.Path) (value : Json) :
    ∀ options, admitsAny path value options = admitsAny other value options
  | [] => rfl
  | schema :: rest => by
      rw [admitsAny, admitsAny, admitsAny_congr path other value rest]
      congr 1
      rw [Bool.eq_iff_iff, List.isEmpty_iff, List.isEmpty_iff]
      exact check_eq_nil_congr path other value schema

theorem checkAll_eq_nil_congr (path other : Json.Path) (value : Json) :
    ∀ parts, checkAll path value parts = [] ↔ checkAll other value parts = []
  | [] => Iff.rfl
  | schema :: rest => by
      simp only [checkAll, List.append_eq_nil_iff]
      exact and_congr (check_eq_nil_congr path other value schema)
        (checkAll_eq_nil_congr path other value rest)

end

/-- Holds of the values that have no violation. -/
def Accepts (schema : Schema) (value : Json) : Prop := schema.violations value = []

/-- Holds of validators that pass only values that a schema accepts. -/
def Validator.Enforces (validator : Validator) (schema : Schema) : Prop :=
  ∀ value, validator value = [] → schema.Accepts value

theorem enforces_violations (schema : Schema) : Validator.Enforces schema.violations schema :=
  fun _ hnone => hnone

variable {schema : Schema} {value : Json} {path : Json.Path}

theorem check_eq_nil_iff : check path value schema = [] ↔ schema.Accepts value :=
  check_eq_nil_congr path [] value schema

section Demands

theorem accepts_type {kinds : List Kind} :
    (Schema.type kinds).Accepts value ↔ ∃ kind ∈ kinds, kind.admits value = true := by
  simp [Accepts, violations, check]

theorem accepts_all {parts : List Schema} :
    (Schema.all parts).Accepts value ↔ ∀ part ∈ parts, part.Accepts value := by
  rw [Accepts, violations, check]
  induction parts with
  | nil => simp [checkAll]
  | cons part parts ih =>
      rw [checkAll, List.append_eq_nil_iff, ih, check_eq_nil_iff, List.forall_mem_cons]

theorem accepts_items {items : List Json} :
    (Schema.items schema).Accepts (.array items) ↔ ∀ item ∈ items, schema.Accepts item := by
  have hentries : (∀ entry ∈ items.zipIdx, schema.Accepts entry.1) ↔
      ∀ item ∈ items, schema.Accepts item := by
    rw [← List.forall_mem_map (f := Prod.fst) (P := schema.Accepts), List.zipIdx_map_fst]
  rw [← hentries]
  simp only [Accepts, violations, check, List.flatMap_eq_nil_iff]
  exact forall₂_congr fun entry _ => check_eq_nil_iff

theorem accepts_values {members : Json.Members} :
    (Schema.values schema).Accepts (.object members) ↔
      ∀ member ∈ members, schema.Accepts member.2 := by
  simp only [Accepts, violations, check, List.flatMap_eq_nil_iff]
  exact forall₂_congr fun member _ => check_eq_nil_iff

theorem checkClosed_eq_nil_iff {known : List (String × Schema)} {whole : Json} {name : String} :
    checkClosed path whole name value known = [] ↔
      ∃ schema, known.lookup name = some schema ∧ schema.Accepts value := by
  induction known with
  | nil => simp [checkClosed]
  | cons entry known ih =>
      obtain ⟨key, schema⟩ := entry
      rw [checkClosed, List.lookup_cons]
      by_cases hkey : key = name
      · simp [hkey, check_eq_nil_iff]
      · rw [if_neg hkey, ih, beq_eq_false_iff_ne.mpr (Ne.symm hkey)]

theorem accepts_closed {known : List (String × Schema)} {members : Json.Members} :
    (Schema.closed known).Accepts (.object members) ↔
      ∀ member ∈ members, ∃ schema, known.lookup member.1 = some schema ∧
        schema.Accepts member.2 := by
  simp only [Accepts, violations, check, List.flatMap_eq_nil_iff]
  exact forall₂_congr fun member _ => checkClosed_eq_nil_iff

theorem accepts_required {names : List String} {members : Json.Members} :
    (Schema.required names).Accepts (.object members) ↔
      ∀ name ∈ names, ∃ value, members.get? name = some value := by
  simp [Accepts, violations, check, Json.Members.has, Option.ne_none_iff_exists']

end Demands

section Shapes

theorem accepts_string : string.Accepts value ↔ ∃ s, value = .string s := by
  rw [string, accepts_type]
  cases value <;> simp [Kind.admits]

theorem accepts_boolean : boolean.Accepts value ↔ ∃ b, value = .bool b := by
  rw [boolean, accepts_type]
  cases value <;> simp [Kind.admits]

theorem accepts_nonEmptyString :
    nonEmptyString.Accepts value ↔ ∃ s, value = .string s ∧ s ≠ "" := by
  rw [nonEmptyString, accepts_all]
  cases value with
  | string s => simp [Kind.admits, Accepts, violations, check, String.length_eq_zero_iff]
  | _ => simp [accepts_type, Kind.admits]

theorem accepts_listOf :
    (listOf schema).Accepts value ↔
      ∃ items, value = .array items ∧ ∀ item ∈ items, schema.Accepts item := by
  rw [listOf, accepts_all]
  cases value with
  | array items => simp [accepts_type, Kind.admits, accepts_items]
  | _ => simp [accepts_type, Kind.admits]

theorem accepts_mapOf :
    (mapOf schema).Accepts value ↔
      ∃ members : Json.Members, value = .object members ∧
        ∀ member ∈ members, schema.Accepts member.2 := by
  rw [mapOf, accepts_all]
  cases value with
  | object members => simp [accepts_type, Kind.admits, accepts_values]
  | _ => simp [accepts_type, Kind.admits]

theorem accepts_closedRecord {known : List (String × Schema)} :
    (closedRecord known).Accepts value ↔
      ∃ members : Json.Members, value = .object members ∧
        (Schema.closed known).Accepts (.object members) := by
  rw [closedRecord, accepts_all]
  cases value with
  | object members => simp [accepts_type, Kind.admits]
  | _ => simp [accepts_type, Kind.admits]

/-- The properties that a gate may have. -/
def gateFields (subject : String) : List (String × Schema) :=
  [("max", gateBound), ("min", gateBound), (subject, string)]

theorem lookup_gateFields {subject : String} (h : subject ≠ "max" ∧ subject ≠ "min") :
    (gateFields subject).lookup subject = some string := by
  simp [gateFields, List.lookup_cons, beq_eq_false_iff_ne.mpr h.1, beq_eq_false_iff_ne.mpr h.2]

theorem accepts_gate {subject : String} :
    (gate subject).Accepts value ↔
      ∃ members : Json.Members, value = .object members ∧
        (Schema.closed (gateFields subject)).Accepts (.object members) ∧
        ∃ found, members.get? subject = some found := by
  rw [gate, accepts_all]
  cases value with
  | object members => simp [accepts_type, Kind.admits, accepts_required, gateFields]
  | _ => simp [accepts_type, Kind.admits]

theorem accepts_deprecatedProperty :
    deprecatedProperty.Accepts value ↔
      ∃ members : Json.Members, value = .object members ∧
        (∃ found, members.get? "pointer" = some found) ∧
        (∃ found, members.get? "message" = some found) ∧
        (Schema.closed [("message", string), ("pointer", string)]).Accepts (.object members) := by
  rw [deprecatedProperty, accepts_all]
  cases value with
  | object members => simp [accepts_type, Kind.admits, accepts_required, and_assoc]
  | _ => simp [accepts_type, Kind.admits]

/-- A bound of a gate is a number, in any spelling, whose value is a positive integer. -/
theorem accepts_gateBound :
    gateBound.Accepts value ↔
      ∃ (number : Json.Number) (n : Nat), value = .number number ∧
        number.value? = some (n : ℚ) ∧ 1 ≤ n := by
  rw [gateBound, accepts_all]
  cases value with
  | number number =>
      have hparts : (∀ part ∈ [Schema.type [.integer], .minimum 1], part.Accepts (.number number)) ↔
          Kind.integer.admits (.number number) = true ∧ ¬isBelow number 1 = true := by
        simp [Accepts, violations, check]
      rw [hparts, admits_integer_not_isBelow_iff]
      constructor
      · rintro ⟨n, hvalue, hleast⟩
        exact ⟨number, n, rfl, hvalue, hleast⟩
      · rintro ⟨_, n, ⟨rfl⟩, hvalue, hleast⟩
        exact ⟨n, hvalue, hleast⟩
  | _ => simp [accepts_type, Kind.admits]

theorem Accepts.member {known : List (String × Schema)} {members : Json.Members} {name : String}
    (h : (Schema.closed known).Accepts (.object members)) (hmember : members.get? name = some value)
    (hknown : known.lookup name = some schema) : schema.Accepts value := by
  obtain ⟨described, hlookup, haccepts⟩ :=
    accepts_closed.mp h (name, value) (Json.Members.mem_of_get? hmember)
  obtain rfl := Option.some.inj (hknown.symm.trans hlookup)
  exact haccepts

end Shapes

end ExtensionLint.Schema
