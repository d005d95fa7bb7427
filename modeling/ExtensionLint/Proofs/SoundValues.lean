import ExtensionLint.Json.Basic
import ExtensionLint.Text.Ascii
import Mathlib.Algebra.Ring.Int.Defs
import Mathlib.Algebra.Ring.Nat

/-!
Values as they are stored. Wherever a value stands in another, objects have their members in ascending
order and numbers satisfy what is asked of them; so a sound array has sound items, a sound object has
sound members, and the other way round.
-/

namespace ExtensionLint.Json

/-- Holds of the integers that 64 bits hold, and of every floating-point number. -/
def Number.Fits : Number → Prop
  | .integer i => -(2 ^ 63) ≤ i ∧ i ≤ Text.word64Max
  | .float _ => True

theorem Number.fits_natCast {n : Nat} (h : n ≤ Text.word64Max) : (Number.integer n).Fits :=
  ⟨by omega, Int.ofNat_le.mpr h⟩

theorem Number.fits_neg {n : Nat} (h : n ≤ 2 ^ 63) : (Number.integer (-(n : Int))).Fits := by
  have hlarge : (0 : Int) ≤ Text.word64Max := Int.natCast_nonneg _
  exact ⟨by omega, by omega⟩

/-- Holds of the integers that 64 bits hold, and of no floating-point number. -/
def Number.FitsExactly : Number → Prop
  | .integer i => -(2 ^ 63) ≤ i ∧ i ≤ Text.word64Max
  | .float _ => False

/-- Holds of the values all of whose numbers are as demanded. -/
inductive Numbers (demand : Number → Prop) : Json → Prop where
  | null : Numbers demand .null
  | bool (value : Bool) : Numbers demand (.bool value)
  | number {n : Number} (hnumber : demand n) : Numbers demand (.number n)
  | string (value : String) : Numbers demand (.string value)
  | array {items : List Json} (hitems : ∀ item ∈ items, Numbers demand item) :
      Numbers demand (.array items)
  | object {members : Members} (hmembers : ∀ member ∈ members, Numbers demand member.2) :
      Numbers demand (.object members)

/-- Holds of the values that are well-formed and all of whose numbers are as demanded. -/
structure Sound (demand : Number → Prop) (value : Json) : Prop where
  wellFormed : value.WellFormed
  numbers : value.Numbers demand

section Sound

variable {demand : Number → Prop}

theorem wellFormedItems_iff {items : List Json} :
    WellFormedItems items ↔ ∀ item ∈ items, item.WellFormed := by
  induction items with
  | nil => simp [WellFormedItems]
  | cons item items ih => simp [WellFormedItems, ih]

theorem wellFormedMembers_iff {members : Members} :
    WellFormedMembers members ↔ ∀ member ∈ members, member.2.WellFormed := by
  induction members with
  | nil => simp [WellFormedMembers]
  | cons member members ih => simp [WellFormedMembers, ih]

theorem sound_null : Sound demand .null := ⟨trivial, .null⟩

theorem sound_bool (value : Bool) : Sound demand (.bool value) := ⟨trivial, .bool value⟩

theorem sound_string (value : String) : Sound demand (.string value) := ⟨trivial, .string value⟩

theorem sound_number {n : Number} : Sound demand (.number n) ↔ demand n := by
  constructor
  · intro h
    cases h.numbers with
    | number hnumber => exact hnumber
  · exact fun hnumber => ⟨trivial, .number hnumber⟩

theorem sound_array {items : List Json} :
    Sound demand (.array items) ↔ ∀ item ∈ items, Sound demand item := by
  constructor
  · intro h item hitem
    cases h.numbers with
    | array hnumbers =>
        exact ⟨wellFormedItems_iff.mp h.wellFormed item hitem, hnumbers item hitem⟩
  · intro hitems
    exact ⟨wellFormedItems_iff.mpr fun item hitem => (hitems item hitem).wellFormed,
      .array fun item hitem => (hitems item hitem).numbers⟩

theorem sound_object {members : Members} :
    Sound demand (.object members) ↔
      members.Ascending ∧ ∀ member ∈ members, Sound demand member.2 := by
  constructor
  · intro h
    obtain ⟨hascending, hformed⟩ := h.wellFormed
    cases h.numbers with
    | object hnumbers =>
        exact ⟨hascending, fun member hmember =>
          ⟨wellFormedMembers_iff.mp hformed member hmember, hnumbers member hmember⟩⟩
  · rintro ⟨hascending, hmembers⟩
    exact ⟨⟨hascending, wellFormedMembers_iff.mpr fun member h => (hmembers member h).wellFormed⟩,
      .object fun member h => (hmembers member h).numbers⟩

theorem sound_toJson {object : Object} :
    Sound demand object.toJson ↔ ∀ member ∈ object.members, Sound demand member.2 := by
  rw [Object.toJson, sound_object, and_iff_right object.ascending]

end Sound
end ExtensionLint.Json
