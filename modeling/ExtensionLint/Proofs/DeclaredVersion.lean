import ExtensionLint.Json.Literal
import ExtensionLint.Proofs.IssuePaths
import ExtensionLint.Proofs.NumberValue
import ExtensionLint.Proofs.PermissionItems

/-!
The version that a manifest declares, read twice. The schema demands a number whose value is 2 or 3;
the manifest takes the number only if it is written as an integer, and the standard version for every
other spelling. So the two agree on every spelling of 2, and on 3 only when it is an integer.
-/

namespace ExtensionLint

open Json (Members)

namespace Schema

/-- An issue other than a missing property is where the violation is, if its path reads back. -/
theorem Violation.path_toIssue {violation : Violation}
    (hpath : Json.Path.ofPointer violation.path.pointer = violation.path)
    (hfault : ∀ name, violation.fault ≠ .required name) :
    violation.toIssue.path = violation.path := by
  obtain ⟨fault, path, value⟩ := violation
  cases fault with
  | required name => exact absurd rfl (hfault name)
  | _ => exact hpath

/-- The violations of the demand for an integer between two bounds are all at the value itself. -/
theorem path_of_mem_check_integerBetween {path : Json.Path} {found : Json} {least most : Nat}
    {violation : Violation} (h : violation ∈ check path found (integerBetween least most)) :
    violation.path = path ∧ ∀ name, violation.fault ≠ .required name := by
  cases found with
  | number number =>
      simp only [integerBetween, check, checkAll, List.append_nil, List.mem_append,
        List.mem_ite_nil_left, List.mem_ite_nil_right, List.mem_singleton] at h
      rcases h with ⟨-, rfl⟩ | ⟨-, rfl⟩ | ⟨-, rfl⟩ <;> simp
  | _ =>
      obtain rfl := by simpa [integerBetween, check, checkAll, Kind.admits] using h
      simp

/-- Where a manifest declares its version. -/
def versionPath : Json.Path := [.key "manifest_version"]

theorem pointer_versionPath : versionPath.pointer = "/manifest_version" := by
  decide

theorem ofPointer_versionPath : Json.Path.ofPointer versionPath.pointer = versionPath :=
  Json.Path.ofPointer_pointer_iff.mpr (by decide)

/-- Holds of validators that raise no issue at the version only where a version is declared, as a number
whose value is an integer from 2 to 3, however it is written. -/
def Validator.ChecksVersion (validator : Validator) : Prop :=
  ∀ properties : Members,
    (∀ issue ∈ validator.issues (.object properties), issue.pointer ≠ "/manifest_version") →
      ∃ (number : Json.Number) (declared : Nat),
        properties.get? "manifest_version" = some (.number number) ∧
          number.value? = some (declared : ℚ) ∧ 2 ≤ declared ∧ declared ≤ 3

/-- A document without an issue at the version declares one, and it meets the demand on it. -/
theorem exists_version_of_accepted {properties : Members}
    (haccepted : ∀ issue ∈ manifest.issues (.object properties),
      issue.pointer ≠ "/manifest_version") :
    ∃ found, properties.get? "manifest_version" = some found ∧
      check versionPath found (integerBetween 2 3) = [] := by
  have hnone : ∀ violation ∈ manifest.violations (.object properties),
      violation.toIssue.path ≠ versionPath := by
    intro violation hviolation hpath
    apply haccepted _ (List.mem_map_of_mem hviolation)
    rw [Issue.pointer, hpath, pointer_versionPath]
  cases hfound : properties.get? "manifest_version" with
  | none =>
      have hrequired : ⟨.required "manifest_version", [], .object properties⟩ ∈
          check [] (.object properties) (.required ["manifest_version", "name", "version"]) := by
        simp [check, Members.has, hfound]
      have hlisted : ⟨.required "manifest_version", [], .object properties⟩ ∈
          manifest.violations (.object properties) :=
        (sublist_checkAll [] (.object properties) (by simp)).subset hrequired
      exact absurd rfl (hnone _ hlisted)
  | some found =>
      refine ⟨found, rfl, List.eq_nil_iff_forall_not_mem.mpr fun violation hviolation => ?_⟩
      have hknown : ("manifest_version", integerBetween 2 3) ∈ manifestKeys := by
        simp [manifestKeys, integerBetween]
      have hlisted : violation ∈ manifest.violations (.object properties) :=
        (sublist_violations_manifest hknown hfound).subset hviolation
      obtain ⟨hpath, hfault⟩ := path_of_mem_check_integerBetween hviolation
      apply hnone violation hlisted
      rw [Violation.path_toIssue (hpath ▸ ofPointer_versionPath) hfault, hpath]

theorem checksVersion_manifest : Validator.ChecksVersion manifest.violations := by
  intro properties haccepted
  obtain ⟨found, hfound, hmet⟩ := exists_version_of_accepted haccepted
  obtain ⟨number, declared, rfl, hvalue, hleast, hmost⟩ := check_integerBetween_eq_nil_iff.mp hmet
  exact ⟨number, declared, hfound, hvalue, hleast, hmost⟩

end Schema

namespace Manifest

/-- A declared number is taken only when it is written as an integer. -/
theorem version_of_number {properties : Members} {number : Json.Number}
    (h : properties.get? "manifest_version" = some (.number number)) :
    (ofProperties properties).version = ((Json.number number).nat?).getD standardVersion := by
  have hget : (Json.object properties).get? "manifest_version" = some (.number number) := h
  show declaredVersion (.object properties) = _
  rw [declaredVersion, hget, Option.bind_some]

/-- Validation and the manifest agree on a version that validation accepts exactly when it is written as
an integer or is the standard version; on every other spelling the manifest has the standard version
instead of the one declared. -/
theorem version_of_accepted {validator : Schema.Validator} (hvalidator : validator.ChecksVersion)
    {properties : Members} (haccepted : ∀ issue ∈ validator.issues (.object properties),
      issue.pointer ≠ "/manifest_version") :
    ∃ (number : Json.Number) (declared : Nat),
      properties.get? "manifest_version" = some (.number number) ∧
      number.value? = some (declared : ℚ) ∧ (declared = 2 ∨ declared = 3) ∧
      ((ofProperties properties).version = declared ↔
        (∃ i, number = .integer i) ∨ declared = standardVersion) ∧
      ((∀ i, number ≠ .integer i) → (ofProperties properties).version = standardVersion) := by
  obtain ⟨number, declared, hfound, hvalue, hleast, hmost⟩ := hvalidator properties haccepted
  have hversion := version_of_number hfound
  refine ⟨number, declared, hfound, hvalue, by omega, ?_⟩
  cases number with
  | integer i =>
      obtain rfl : i = declared := by exact_mod_cast Option.some.inj hvalue
      have hinteger : (ofProperties properties).version = declared := hversion
      simp [hinteger]
  | float x =>
      have hfloat : (ofProperties properties).version = standardVersion := hversion
      simp [hfloat, eq_comm]

/-- Version 3 as an integer is the version of the manifest. -/
theorem version_of_accepted_integer :
    let properties : Members :=
      [("manifest_version", .ofNat 3), ("name", .string "Demo"), ("version", .string "1.0")]
    Schema.Validator.ChecksVersion Schema.manifest.violations ∧
    (∀ issue ∈ Schema.manifest.issues (.object properties),
      issue.pointer ≠ "/manifest_version") ∧
    (ofProperties properties).version = 3 := by
  intro properties
  have haccepted : ∀ issue ∈ Schema.manifest.issues (.object properties),
      issue.pointer ≠ "/manifest_version" := by
    have hnone : Schema.manifest.issues (.object properties) = [] := by rfl
    simp [hnone]
  obtain ⟨number, declared, hnumber, hvalue, -, hagree, -⟩ :=
    version_of_accepted Schema.checksVersion_manifest haccepted
  obtain rfl : Json.Number.integer 3 = number := by injection Option.some.inj hnumber
  obtain rfl : 3 = declared := by exact_mod_cast Option.some.inj hvalue
  exact ⟨Schema.checksVersion_manifest, haccepted, hagree.mpr (.inl ⟨3, rfl⟩)⟩

/-- Version 3 written with a fraction raises no issue, and yet the manifest has version 2. -/
theorem version_of_accepted_fraction :
    let three : Json.Number := .float (.ofNat 3)
    let properties : Members :=
      [("manifest_version", .number three), ("name", .string "Demo"), ("version", .string "1.0")]
    Json.Number.ofLiteral? ⟨false, ['3'], some ['0'], none⟩ = some three ∧
    Schema.manifest.issues (.object properties) = [] ∧
    three.value? = some 3 ∧ (ofProperties properties).version = 2 := by
  intro three properties
  have hthree : three = .float (.finite false (3 * 2 ^ 51) (-51)) := by decide +kernel
  have hvalue : three.value? = some 3 := by
    rw [hthree]
    norm_num [Json.Number.value?, Binary64.value?, Binary64.magnitude]
  exact ⟨by decide +kernel, rfl, hvalue, rfl⟩

end Manifest
end ExtensionLint
