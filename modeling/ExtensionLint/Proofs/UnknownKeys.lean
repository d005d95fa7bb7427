import ExtensionLint.Package.Memory
import ExtensionLint.Proofs.AnnotationPaths
import ExtensionLint.Proofs.KnownKeys
import ExtensionLint.Proofs.SupportWalk

/-!
Keys that the schema does not know. No demand, no rule and no normalization reads such a key;
annotations and compatibility data might, so they are taken to say nothing about it. Then the report
is the same with the key, whatever its value, and without it.
-/

namespace ExtensionLint

open Json (Members Object)

namespace Compatibility

theorem manifestVisits_erase {tree : SupportTree} {key : String} (hkey : tree.child? key = none)
    (properties : Members) :
    manifestVisits tree (properties.erase key) = manifestVisits tree properties := by
  induction properties with
  | nil => rfl
  | cons member properties ih =>
      obtain ⟨name, value⟩ := member
      by_cases hname : name = key
      · rw [hname, Members.erase_cons_self, ih, manifestVisits_cons, hkey]
        rfl
      · rw [Members.erase_cons_of_ne hname, manifestVisits_cons, manifestVisits_cons, ih]

end Compatibility

namespace Manifest

def erase (key : String) (manifest : Manifest) : Manifest :=
  { manifest with properties := manifest.properties.erase key }

section Erase

variable {key : String} {properties : Members}

theorem ne_of_unknown {known : String} (hkey : key ∉ knownKeys) (hknown : known ∈ knownKeys) :
    known ≠ key := fun heq => hkey (heq ▸ hknown)

theorem agree_erase (manifest : Manifest) (hkey : key ∉ knownKeys) :
    (manifest.erase key).Agree manifest where
  version := rfl
  kind := rfl
  known _ hknown := Members.get?_erase_of_ne (ne_of_unknown hkey hknown)

theorem ofProperties_erase (hkey : key ∉ knownKeys) :
    ofProperties (properties.erase key) = (ofProperties properties).erase key := by
  have hversion : declaredVersion (.object (properties.erase key)) =
      declaredVersion (.object properties) :=
    declaredVersion_congr (Members.get?_erase_of_ne (ne_of_unknown hkey (by decide)))
  have hmarkers : ∀ marker ∈ AddonKind.markers, marker.1 ∈ knownKeys := by decide
  have hkind : AddonKind.detect (properties.erase key) = AddonKind.detect properties :=
    AddonKind.detect_congr fun marker hmarker =>
      Members.get?_erase_of_ne (ne_of_unknown hkey (hmarkers marker hmarker))
  rw [ofProperties, ofProperties, erase, hversion, hkind]

theorem promotions_erase (hkey : key ∉ knownKeys) :
    promotions (properties.erase key) = promotions properties :=
  promotions_congr (Members.get?_erase_of_ne (ne_of_unknown hkey (by decide)))
    (Members.get?_erase_of_ne (ne_of_unknown hkey (by decide)))

/-- Normalizing a manifest without an unknown key is normalizing it and leaving the key out. -/
theorem normalize_erase (object : Object) (hkey : key ∉ knownKeys) :
    ((ofProperties object.members).erase key).normalize =
      (ofProperties object.members).normalize.erase key := by
  have hreplaced : key ∉ (promotions object.members).map Prod.fst := by
    intro hmem
    exact hkey ((show ∀ replaced ∈ replacedKeys, replaced ∈ knownKeys by decide) key hmem)
  have hproperties : ((ofProperties object.members).erase key).normalize.properties =
      ((ofProperties object.members).normalize.erase key).properties := by
    rw [properties_normalize, erase, erase, properties_normalize]
    exact (congrArg (Members.assignAll · _) (promotions_erase hkey)).trans
      (Object.erase_assignAll hreplaced).symm
  exact congrArg (fun properties => { ofProperties object.members with properties }) hproperties

end Erase

end Manifest

namespace Schema

variable {members others : Members}

theorem checkKnown_congr {path : Json.Path} {known : List (String × Schema)}
    (h : ∀ entry ∈ known, members.get? entry.1 = others.get? entry.1) :
    checkKnown path members known = checkKnown path others known := by
  induction known with
  | nil => rfl
  | cons entry known ih =>
      simp only [List.mem_cons, forall_eq_or_imp] at h
      rw [checkKnown, checkKnown, h.1, ih h.2]

theorem issues_manifest_congr
    (h : ∀ key ∈ Manifest.knownKeys, members.get? key = others.get? key) :
    manifest.issues (.object members) = manifest.issues (.object others) := by
  have hknown : checkKnown [] members manifestKeys = checkKnown [] others manifestKeys :=
    checkKnown_congr fun entry hentry => h _ (List.mem_map_of_mem hentry)
  have hrequired : ∀ names : List String, (∀ name ∈ names, name ∈ Manifest.knownKeys) →
      (check [] (.object members) (.required names)).map Violation.toIssue =
        (check [] (.object others) (.required names)).map Violation.toIssue := by
    intro names hnames
    have hhas : (names.filter fun name => !members.has name) =
        names.filter fun name => !others.has name :=
      List.filter_congr fun name hname => by rw [Members.has, Members.has, h name (hnames name hname)]
    rw [check, check, hhas, List.map_map, List.map_map]
    rfl
  have hparts : ∀ members : Members, manifest.issues (.object members) =
      (check [] (.object members) (.required ["manifest_version", "name", "version"])).map
          Violation.toIssue ++ (checkKnown [] members manifestKeys).map Violation.toIssue := by
    intro members
    simp [issues, Validator.issues, violations, manifest, check, checkAll, Kind.admits]
  rw [hparts, hparts, hknown, hrequired _ (by decide)]

/-- Holds of validators to which a top-level key makes no difference unless it is one of those known,
so that setting it to a value neither adds nor changes an issue. -/
def Validator.IgnoresUnknown (validator : Validator) (known : List String) : Prop :=
  ∀ key ∉ known, ∀ (object : Object) (value : Json),
    validator.issues (object.insert key value).toJson = validator.issues (object.erase key).toJson

theorem ignoresUnknown_manifest :
    Validator.IgnoresUnknown manifest.violations (manifestKeys.map Prod.fst) := by
  intro key hkey object value
  refine issues_manifest_congr fun known hknown => ?_
  have hne : known ≠ key := Manifest.ne_of_unknown hkey hknown
  exact (Members.get?_insert_of_ne hne).trans (Members.get?_erase_of_ne hne).symm

end Schema

/-- Holds of pointers that neither lead to the whole value nor start at a name. -/
def Json.Pointer.Avoids (pointer name : String) : Prop :=
  ∀ tokens ∈ tokens? pointer, ∃ token ∈ tokens.head?, String.ofList token ≠ name

instance (pointer name : String) : Decidable (Json.Pointer.Avoids pointer name) := by
  unfold Json.Pointer.Avoids
  infer_instance

theorem Json.pointer?_erase {members : Members} {pointer name : String}
    (hpointer : Pointer.Avoids pointer name) :
    (object (members.erase name)).pointer? pointer = (object members).pointer? pointer := by
  rw [Json.pointer?, Json.pointer?]
  cases htokens : Pointer.tokens? pointer with
  | none => rfl
  | some tokens =>
      obtain ⟨token, htoken, hne⟩ := hpointer tokens htokens
      obtain ⟨rest, rfl⟩ := List.head?_eq_some_iff.mp htoken
      have hstep : (members.erase name).lookup (String.ofList token) =
          members.lookup (String.ofList token) := Members.get?_erase_of_ne hne
      simp only [Option.bind_some, Pointer.walk?, Pointer.step?, hstep]

namespace Annotations

variable {members others : Members} {annotations : Annotations}

/-- The issues of annotations depend on the known keys and on what their pointers lead to. -/
theorem issues_congr (privileged : Bool)
    (h : ∀ key ∈ Manifest.knownKeys, members.get? key = others.get? key)
    (hpointers : ∀ pointer ∈ annotations.pointers,
      (Json.object members).pointer? pointer = (Json.object others).pointer? pointer) :
    annotations.issues privileged (.object members) =
      annotations.issues privileged (.object others) := by
  have hget : ∀ key ∈ Manifest.knownKeys,
      (Json.object members).get? key = (Json.object others).get? key := h
  have hversion : Manifest.declaredVersion (.object members) =
      Manifest.declaredVersion (.object others) := Manifest.declaredVersion_congr (h _ (by decide))
  have hlisted : annotations.listedPermissions (.object members) =
      annotations.listedPermissions (.object others) := by
    rw [listedPermissions, listedPermissions, hget "permissions" (by decide)]
  simp only [pointers, List.mem_append, List.mem_map, or_imp, forall_and] at hpointers
  obtain ⟨⟨hdeprecated, hgates⟩, hprivileged⟩ := hpointers
  have hdeprecatedIssues : annotations.deprecated.filterMap (deprecatedIssue? (.object members)) =
      annotations.deprecated.filterMap (deprecatedIssue? (.object others)) :=
    List.filterMap_congr fun property hproperty => by
      rw [deprecatedIssue?, deprecatedIssue?, hdeprecated _ ⟨property, hproperty, rfl⟩]
  have hgateIssues : annotations.propertyGates.filterMap (propertyGateIssue? (.object members)) =
      annotations.propertyGates.filterMap (propertyGateIssue? (.object others)) :=
    List.filterMap_congr fun gate hgate => by
      rw [propertyGateIssue?, propertyGateIssue?, hgates _ ⟨gate, hgate, rfl⟩, hversion]
  have hlistIssues : gatedLists.flatMap (annotations.permissionListIssues (.object members)) =
      gatedLists.flatMap (annotations.permissionListIssues (.object others)) :=
    List.flatMap_congr fun list hlist => by
      rw [permissionListIssues, permissionListIssues, hversion, hget list (by revert list; decide)]
  have hprivilegedIssues :
      annotations.privilegedProperties.filterMap
          (annotations.privilegedPropertyIssue? (.object members)) =
        annotations.privilegedProperties.filterMap
          (annotations.privilegedPropertyIssue? (.object others)) :=
    List.filterMap_congr fun pointer hpointer => by
      rw [privilegedPropertyIssue?, privilegedPropertyIssue?, hprivileged pointer hpointer, hlisted]
  have hpermissions : annotations.permissionsIssue? privileged (.object members) =
      annotations.permissionsIssue? privileged (.object others) := by
    rw [permissionsIssue?, permissionsIssue?, permissionsFail, permissionsFail, hlisted,
      hget "permissions" (by decide)]
  rw [issues, issues, hdeprecatedIssues, hgateIssues, hlistIssues, hprivilegedIssues, hpermissions]

/-- A key that neither the validator nor the pointers of the annotations know raises no issue. -/
theorem validate_insert {validator : Schema.Validator} {object : Object} {key : String}
    (hvalidator : validator.IgnoresUnknown Manifest.knownKeys) (hkey : key ∉ Manifest.knownKeys)
    (hpointers : ∀ pointer ∈ annotations.pointers, Json.Pointer.Avoids pointer key)
    (value : Json) (privileged : Bool) :
    annotations.validate validator privileged (object.insert key value).toJson =
      annotations.validate validator privileged (object.erase key).toJson := by
  have hknown : ∀ known ∈ Manifest.knownKeys,
      (object.insert key value).members.get? known = (object.erase key).members.get? known := by
    intro known hknown
    have hne := Manifest.ne_of_unknown hkey hknown
    exact (Members.get?_insert_of_ne hne).trans (Members.get?_erase_of_ne hne).symm
  have hpointer : ∀ pointer ∈ annotations.pointers,
      (object.insert key value).toJson.pointer? pointer =
        (object.erase key).toJson.pointer? pointer := by
    intro pointer hmem
    have herase : ((object.insert key value).erase key).toJson.pointer? pointer =
        (object.insert key value).toJson.pointer? pointer :=
      Json.pointer?_erase (hpointers pointer hmem)
    rw [← herase, Object.erase_insert_self]
  rw [validate, validate, hvalidator key hkey, Object.toJson, Object.toJson,
    issues_congr privileged hknown hpointer]

end Annotations

namespace Linter

variable (linter : Linter) (context : LintContext) (package : Package)

/-- A manifest without an unknown key is reported on as the manifest with it, if the key raises no
issue. -/
theorem lint_erase {properties : Object} {key : String}
    (hissues : linter.validate context.privileged (properties.erase key).toJson =
      linter.validate context.privileged properties.toJson)
    (hkey : key ∉ Manifest.knownKeys) (hcompatibility : linter.compatibility.child? key = none) :
    linter.lint context package (properties.erase key).toJson =
      linter.lint context package properties.toJson := by
  have hnormalize := Manifest.normalize_erase properties hkey
  have hreport := linter.report_congr context package
    ((Manifest.ofProperties properties.members).agree_erase hkey)
    (hnormalize ▸ Manifest.agree_erase _ hkey) hissues
    (hnormalize ▸ Compatibility.manifestVisits_erase hcompatibility _)
  have hmanifest : Manifest.ofProperties (properties.erase key).members =
      (Manifest.ofProperties properties.members).erase key := Manifest.ofProperties_erase hkey
  rw [Object.toJson, Object.toJson, lint_object, lint_object, hmanifest]
  exact congrArg Except.ok hreport

/-- A key that the schema, the pointers of the annotations and the compatibility data do not know
makes no difference to a run, whatever its value. -/
theorem lint_unknown_key (annotations : Annotations) {validator : Schema.Validator}
    (hvalidator : validator.IgnoresUnknown (Schema.manifestKeys.map Prod.fst))
    (properties : Object) {key : String} (hkey : key ∉ Schema.manifestKeys.map Prod.fst)
    (hpointers : ∀ pointer ∈ annotations.pointers, Json.Pointer.Avoids pointer key)
    (hcompatibility : linter.compatibility.child? key = none) (value : Json) :
    let linter := { linter with validate := annotations.validate validator }
    linter.lint context package (properties.insert key value).toJson =
      linter.lint context package (properties.erase key).toJson := by
  intro linter
  have hissues : linter.validate context.privileged ((properties.insert key value).erase key).toJson =
      linter.validate context.privileged (properties.insert key value).toJson := by
    rw [Object.erase_insert_self]
    exact (Annotations.validate_insert hvalidator hkey hpointers value _).symm
  rw [← linter.lint_erase context package hissues hkey hcompatibility, Object.erase_insert_self]

/-- A key of a vendor beside keys with compatibility data makes no difference. -/
theorem lint_unknown_key_vendor :
    let linter := { Linter.standard with
      compatibility := .node none [("background", .leaf ⟨[⟨some "200"⟩], []⟩)] }
    let package := MemoryPackage.empty.toPackage
    let properties := Object.ofList [("manifest_version", .ofNat 2), ("name", .string "Demo"),
      ("background", .object []), ("x_vendor", .null)]
    Schema.Validator.IgnoresUnknown Schema.manifest.violations
        (Schema.manifestKeys.map Prod.fst) ∧
      "x_vendor" ∉ Schema.manifestKeys.map Prod.fst ∧
      (∀ pointer ∈ Annotations.standard.pointers, Json.Pointer.Avoids pointer "x_vendor") ∧
      linter.compatibility.child? "x_vendor" = none ∧
      linter.lint .standard package
          (properties.insert "x_vendor" (.object [("any", .bool true)])).toJson =
        linter.lint .standard package (properties.erase "x_vendor").toJson := by
  intro linter package properties
  have hkey : "x_vendor" ∉ Schema.manifestKeys.map Prod.fst := by decide
  have hpointers : ∀ pointer ∈ Annotations.standard.pointers,
      Json.Pointer.Avoids pointer "x_vendor" := by decide
  have hcompatibility : linter.compatibility.child? "x_vendor" = none := rfl
  exact ⟨Schema.ignoresUnknown_manifest, hkey, hpointers, hcompatibility,
    linter.lint_unknown_key .standard package .standard Schema.ignoresUnknown_manifest properties hkey
      hpointers hcompatibility _⟩

end Linter
end ExtensionLint
