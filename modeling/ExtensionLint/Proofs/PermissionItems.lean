import ExtensionLint.Package.Memory
import ExtensionLint.Proofs.Precedence
import ExtensionLint.Proofs.Run

/-!
Permissions that are no strings. The schema of manifests demands strings in `permissions`, so every
other item is a violation; it becomes a finding of a code that always invalidates, and nothing later
in a run takes a finding back. So such a manifest is invalid whatever severities a catalog sets.
-/

namespace ExtensionLint

namespace Schema

/-- The demands on a member are among those on known properties. -/
theorem sublist_checkKnown (path : Json.Path) {members : Json.Members} {name : String}
    {member : Json} {schema : Schema} {known : List (String × Schema)}
    (hknown : (name, schema) ∈ known) (hmember : members.get? name = some member) :
    (check (path ++ [.key name]) member schema).Sublist (checkKnown path members known) := by
  induction known with
  | nil => cases hknown
  | cons first rest ih =>
      obtain ⟨other, demand⟩ := first
      rw [checkKnown]
      rcases List.mem_cons.mp hknown with hfirst | hrest
      · obtain ⟨rfl, rfl⟩ := Prod.mk.inj hfirst
        simp only [hmember]
        exact List.sublist_append_left _ _
      · exact (ih hrest).trans (List.sublist_append_right _ _)

theorem sublist_checkAll (path : Json.Path) (value : Json) {schema : Schema} {parts : List Schema}
    (h : schema ∈ parts) : (check path value schema).Sublist (checkAll path value parts) := by
  induction parts with
  | nil => cases h
  | cons part parts ih =>
      rw [checkAll]
      rcases List.mem_cons.mp h with rfl | hrest
      · exact List.sublist_append_left _ _
      · exact (ih hrest).trans (List.sublist_append_right _ _)

theorem sublist_violations_manifest {properties : Json.Members} {name : String} {member : Json}
    {schema : Schema} (hknown : (name, schema) ∈ manifestKeys)
    (hmember : properties.get? name = some member) :
    (check [.key name] member schema).Sublist (manifest.violations (.object properties)) := by
  have hproperties : (check [.key name] member schema).Sublist
      (check [] (.object properties) (.properties manifestKeys)) :=
    sublist_checkKnown [] hknown hmember
  exact hproperties.trans (sublist_checkAll _ _ (by simp))

/-- The violation of an item that should be a string. -/
def wrongItem (key : String) (item : Json) (position : Nat) : Violation :=
  ⟨.type [.string], [.key key, .index position], item⟩

/-- The violations of the items that should be strings and are not. -/
def wrongItems (key : String) (items : List Json) : List Violation :=
  (items.zipIdx.filter fun entry => !entry.1.isString).map fun entry =>
    wrongItem key entry.1 entry.2

theorem admits_string (value : Json) : Kind.string.admits value = value.isString := by
  cases value <;> rfl

theorem check_items_string (key : String) (items : List Json) :
    check [.key key] (.array items) (.items string) = wrongItems key items := by
  have hitem : ∀ (item : Json) (position : Nat),
      check ([.key key] ++ [.index position]) item string =
        if item.isString then [] else [wrongItem key item position] := by
    intro item position
    simp only [string, check, List.any_cons, List.any_nil, Bool.or_false, admits_string]
    rfl
  simp only [check, hitem, wrongItems]
  induction items.zipIdx with
  | nil => rfl
  | cons entry entries ih =>
      rw [List.flatMap_cons, ih]
      cases hstring : entry.1.isString <;> simp [hstring]

/-- Holds of validators that report each item of `permissions` that is no string, in the order of the
items: at its place, as a value of a wrong type. -/
def Validator.ReportsItems (validator : Validator) : Prop :=
  ∀ (properties : Json.Members) (items : List Json),
    properties.get? "permissions" = some (.array items) →
      (wrongItems "permissions" items).Sublist (validator (.object properties))

/-- Every item of `permissions` that is no string violates the schema of manifests. -/
theorem reportsItems_manifest : Validator.ReportsItems manifest.violations := by
  intro properties items h
  have hlist : (wrongItems "permissions" items).Sublist
      (check [.key "permissions"] (.array items) strings) := by
    rw [← check_items_string]
    exact sublist_checkAll _ _ (by simp)
  have hknown : ("permissions", strings) ∈ manifestKeys := by
    simp [manifestKeys]
  exact hlist.trans (sublist_violations_manifest hknown h)

end Schema

/-- What there is to say about a value that should be a string. -/
def nonStringMessage (item : Json) : String := item.text ++ " is not of type \"string\""

theorem Schema.message_wrongItem (key : String) (item : Json) (position : Nat) :
    (wrongItem key item position).message = nonStringMessage item := by
  have hmessage : (wrongItem key item position).message =
      item.text ++ " is not of type " ++ ", ".intercalate ["\"" ++ Kind.name .string ++ "\""] := rfl
  rw [hmessage, String.intercalate_singleton, String.append_assoc]
  rfl

theorem Schema.isBelow_wrongItem (item : Json) (position : Nat) :
    (wrongItem "permissions" item position).toIssue.IsBelow "permissions" := by
  have hname : Json.Pointer.looseIndex? (Json.Pointer.escape "permissions".toList) = none := by decide
  have hpath : (wrongItem "permissions" item position).toIssue.path =
      Json.Path.ofPointer (Json.Path.pointer [.key "permissions", .index position]) := rfl
  rw [Issue.IsBelow, hpath, Json.Path.ofPointer_pointer, List.map_cons,
    Json.Path.ofToken_write_key hname]
  exact ⟨_, rfl⟩

namespace Classifier

/-- The finding about an item of `permissions` that is no string. -/
def nonStringFinding (catalog : Catalog) (item : Json) : Diagnostic :=
  catalog.render .manifestBadPermission [("detail", nonStringMessage item)]

/-- The violation of an item of `permissions` is classified by the row of values that are no strings,
and is not dropped. -/
theorem classify_wrongItem (classifier : Classifier) {item : Json} (hitem : item.isString = false)
    (position : Nat) :
    classifier.classify (Schema.wrongItem "permissions" item position).toIssue =
      some (nonStringFinding classifier.catalog item) := by
  have hbelow : (Schema.wrongItem "permissions" item position).toIssue.NonStringBelow
      .permissions := ⟨⟨item, rfl, hitem⟩, Schema.isBelow_wrongItem item position, trivial⟩
  have hgate : ∀ list place,
      ¬(Schema.wrongItem "permissions" item position).toIssue.GatedItem list place := by
    rintro list place ⟨hkind | hkind, -⟩ <;> cases hkind
  have hrow : Precedence classifier _ _ := .nonString hgate hbelow
  have hmessage : (Schema.wrongItem "permissions" item position).toIssue.message =
      nonStringMessage item := Schema.message_wrongItem "permissions" item position
  rw [classify_eq_outcome, verdict_of_precedence hrow, hmessage]
  simp [outcome, PermissionList.badCode, nonStringFinding, Catalog.render]

theorem classifyAll_wrongItems (classifier : Classifier) (items : List Json) :
    classifier.classifyAll ((Schema.wrongItems "permissions" items).map Schema.Violation.toIssue) =
      (items.filter fun item => !item.isString).map (nonStringFinding classifier.catalog) := by
  have hentries : ∀ entries : List (Json × Nat),
      (((entries.filter fun entry => !entry.1.isString).map fun entry =>
          Schema.wrongItem "permissions" entry.1 entry.2).map Schema.Violation.toIssue).filterMap
        classifier.classify =
      ((entries.map Prod.fst).filter fun item => !item.isString).map
        (nonStringFinding classifier.catalog) := by
    intro entries
    induction entries with
    | nil => rfl
    | cons entry entries ih =>
        cases hstring : entry.1.isString with
        | true => simpa [hstring] using ih
        | false => simpa [hstring, classifier.classify_wrongItem hstring entry.2] using ih
  rw [classifyAll, Schema.wrongItems, hentries, List.zipIdx_map_fst]

end Classifier

namespace Linter

/-- Whatever issues a linter finds, a run keeps its findings about items that are no strings. -/
theorem report_of_wrongItems (linter : Linter) (context : LintContext) (package : Package)
    {document : Json} (manifest : Manifest) {items : List Json}
    (h : ((Schema.wrongItems "permissions" items).map Schema.Violation.toIssue).Sublist
      (linter.validate context.privileged document)) :
    ((items.filter fun item => !item.isString).map
      (Classifier.nonStringFinding linter.catalog)).Sublist
        (linter.report context package document manifest).diagnostics ∧
    ((∃ item ∈ items, item.isString = false) →
      (linter.report context package document manifest).valid = false) := by
  have hfound : ((items.filter fun item => !item.isString).map
      (Classifier.nonStringFinding linter.catalog)).Sublist
        (linter.documentFindings context document manifest) := by
    have hclassified := (linter.classifier context manifest).classifyAll_wrongItems items
    exact hclassified ▸ h.filterMap (linter.classifier context manifest).classify
  have hlog : ((items.filter fun item => !item.isString).map
      (Classifier.nonStringFinding linter.catalog)).Sublist
        (linter.log context package document manifest).entries :=
    hfound.trans ((List.sublist_append_left _ _).trans
      (linter.textFindings_prefix_log context package document manifest).sublist)
  constructor
  · refine @Report.sublist_diagnostics_ofLog _ _ _
      (linter.catalog.template .manifestBadPermission).severity hlog ?_
    intro diagnostic hdiagnostic
    obtain ⟨item, -, rfl⟩ := List.mem_map.mp hdiagnostic
    rfl
  · rintro ⟨item, hitem, hstring⟩
    apply Report.valid_ofLog_eq_false
      (hlog.subset (List.mem_map_of_mem (List.mem_filter.mpr ⟨hitem, by simp [hstring]⟩)))
    simp [Diagnostic.invalidates, Classifier.nonStringFinding, Code.alwaysInvalidates]

/-- A manifest with a permission that is no string is invalid, and its report has the finding about
each such permission, in order, whatever the catalog says about their severity. -/
theorem lint_nonString_permissions (linter : Linter) (annotations : Annotations)
    {validator : Schema.Validator} (hvalidator : validator.ReportsItems) (context : LintContext)
    (package : Package) {properties : Json.Members} {items : List Json}
    (hpermissions : properties.get? "permissions" = some (.array items))
    (hitems : ∃ item ∈ items, item.isString = false) :
    ∃ report,
      { linter with validate := annotations.validate validator }.lint context package
        (.object properties) = .ok report ∧
      report.valid = false ∧
      ((items.filter fun item => !item.isString).map fun item =>
        linter.catalog.render .manifestBadPermission
          [("detail", item.text ++ " is not of type \"string\"")]).Sublist report.diagnostics := by
  have hissues : ((Schema.wrongItems "permissions" items).map Schema.Violation.toIssue).Sublist
      (annotations.validate validator context.privileged (.object properties)) :=
    ((hvalidator properties items hpermissions).map Schema.Violation.toIssue).trans
      (List.sublist_append_left _ _)
  obtain ⟨hfound, hvalid⟩ :=
    { linter with validate := annotations.validate validator }.report_of_wrongItems context
      package (Manifest.ofProperties properties) hissues
  exact ⟨_, lint_object _ context package properties, hvalid hitems, hfound⟩

/-- A number and a null among the permissions are both reported. -/
theorem lint_nonString_permissions_mixed :
    let items := [Json.ofNat 42, .string "tabs", .null]
    let properties : Json.Members := [("manifest_version", .ofNat 2), ("permissions", .array items)]
    let package := MemoryPackage.empty.toPackage
    Schema.Validator.ReportsItems Schema.manifest.violations ∧
      properties.get? "permissions" = some (.array items) ∧
      (∃ item ∈ items, item.isString = false) ∧
      ∃ report, Linter.standard.lint .standard package (.object properties) = .ok report ∧
        report.valid = false ∧
        ([Json.ofNat 42, .null].map fun item =>
          Linter.standard.catalog.render .manifestBadPermission
            [("detail", item.text ++ " is not of type \"string\"")]).Sublist report.diagnostics := by
  intro items properties package
  have hpermissions : properties.get? "permissions" = some (.array items) := rfl
  have hitems : ∃ item ∈ items, item.isString = false := ⟨.null, by simp [items], rfl⟩
  exact ⟨Schema.reportsItems_manifest, hpermissions, hitems,
    Linter.standard.lint_nonString_permissions .standard Schema.reportsItems_manifest .standard
      package hpermissions hitems⟩

end Linter
end ExtensionLint
