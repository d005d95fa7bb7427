import ExtensionLint.Package.Memory
import ExtensionLint.Proofs.Filling
import ExtensionLint.Proofs.Findings
import ExtensionLint.Proofs.References

/-!
What is reserved to privileged add-ons. The rule about privileged permissions raises at most one
issue, at the list `permissions`; no other issue becomes a finding about these permissions. So the
report has one such finding or none, and which one depends on the flag and on the privileged
permissions that the manifest lists. The required permission is looked for among these, so requesting
it is enough exactly where it is itself one of the privileged permissions.
-/

namespace ExtensionLint

namespace Issue

/-- The permissions that come with an issue about something reserved, and its code for ordinary
add-ons. -/
def Kind.reserved? : Kind → Option (List String × Code)
  | privileged listed => some (listed, .manifestFieldPrivileged)
  | privilegedPermissions listed => some (listed, .manifestPermissionsPrivileged)
  | _ => none

/-- Holds of issues that do not bear on privileged permissions: what an issue is about is not
reserved, or it is a property that an ordinary add-on declares. -/
def Unreserved (issue : Issue) (privileged : Bool) : Prop :=
  issue.kind.reserved? = none ∨ privileged = false ∧ ∃ listed, issue.kind = .privileged listed

end Issue

theorem Schema.Violation.reserved?_toIssue (violation : Violation) :
    violation.toIssue.kind.reserved? = none := by
  rw [toIssue]
  cases violation.fault <;> rfl

namespace Annotations

theorem reserved?_rangeIssue? {range : VersionRange} {version : Nat} {pointer : String}
    {value : Json} {issue : Issue} (h : rangeIssue? range version pointer value = some issue) :
    issue.kind.reserved? = none := by
  rw [rangeIssue?] at h
  split at h
  · exact Option.some.inj h ▸ rfl
  · exact Option.some.inj h ▸ rfl
  · cases h

theorem reserved?_permissionGateIssues {annotations : Annotations} {version position : Nat}
    {list : String} {item : Json} {issue : Issue}
    (h : issue ∈ annotations.permissionGateIssues version list position item) :
    issue.kind.reserved? = none := by
  cases item with
  | string name =>
      obtain ⟨gate, -, hrange⟩ := List.mem_filterMap.mp h
      exact reserved?_rangeIssue? hrange
  | _ => cases h

/-- The rule about privileged permissions has the last word, and no other issue bears on them. -/
theorem exists_validate_eq_append (annotations : Annotations) (validator : Schema.Validator)
    (privileged : Bool) (document : Json) :
    ∃ others, annotations.validate validator privileged document =
        others ++ (annotations.permissionsIssue? privileged document).toList ∧
      ∀ issue ∈ others, issue.Unreserved privileged := by
  refine ⟨_, (List.append_assoc ..).symm, fun issue hissue => ?_⟩
  simp only [List.mem_append, List.mem_filterMap, List.mem_flatMap] at hissue
  rcases hissue with hschema | ((⟨_, -, hdeprecated⟩ | ⟨gate, -, hgate⟩) | ⟨list, -, hlist⟩) |
    hprivileged
  · obtain ⟨violation, -, rfl⟩ := List.mem_map.mp hschema
    exact .inl violation.reserved?_toIssue
  · obtain ⟨value, -, rfl⟩ := Option.map_eq_some_iff.mp hdeprecated
    exact .inl rfl
  · obtain ⟨value, -, hrange⟩ := Option.bind_eq_some_iff.mp hgate
    exact .inl (reserved?_rangeIssue? hrange)
  · obtain ⟨⟨item, position⟩, -, hitem⟩ := List.mem_flatMap.mp hlist
    exact .inl (reserved?_permissionGateIssues hitem)
  · cases privileged with
    | true => cases hprivileged
    | false =>
        obtain ⟨pointer, -, hproperty⟩ := List.mem_filterMap.mp hprivileged
        obtain ⟨value, -, rfl⟩ := Option.map_eq_some_iff.mp hproperty
        exact .inr ⟨rfl, _, rfl⟩

/-- The rule about privileged permissions fails exactly where it raises an issue. -/
theorem forall_kind_ne_iff (annotations : Annotations) (validator : Schema.Validator)
    (privileged : Bool) (document : Json) :
    (∀ issue ∈ annotations.validate validator privileged document,
        ∀ listed, issue.kind ≠ .privilegedPermissions listed) ↔
      annotations.permissionsFail privileged document = false := by
  obtain ⟨others, hcheck, hothers⟩ :=
    annotations.exists_validate_eq_append validator privileged document
  have hkind : ∀ issue ∈ others, ∀ listed, issue.kind ≠ .privilegedPermissions listed := by
    intro issue hissue listed hkind
    rcases hothers issue hissue with hnone | ⟨-, other, hother⟩
    · rw [hkind] at hnone
      exact absurd hnone (by simp [Issue.Kind.reserved?])
    · exact absurd (hkind.symm.trans hother) (by simp)
  rw [hcheck, permissionsIssue?]
  cases hfail : annotations.permissionsFail privileged document with
  | true =>
      refine iff_of_false (fun hall => ?_) (by decide)
      exact hall _ (List.mem_append_right _ (List.mem_singleton_self _)) _ rfl
  | false => simpa using hkind

theorem mem_listedPermissions {annotations : Annotations} {properties : Json.Members}
    {items : List Json} (h : properties.get? "permissions" = some (.array items)) {name : String} :
    name ∈ annotations.listedPermissions (.object properties) ↔
      .string name ∈ items ∧ name ∈ annotations.privilegedPermissions := by
  have hget : (Json.object properties).get? "permissions" = some (.array items) := h
  rw [listedPermissions, List.mem_filter, hget, Json.mem_stringsOf, List.contains_iff_mem]
  simp

end Annotations

namespace Classifier

/-- The codes about what is reserved to privileged add-ons. -/
def reservedCodes : List Code :=
  [.manifestPermissionsPrivileged, .manifestFieldPrivileged, .privilegedFeaturesRequired,
    .mozillaAddonsPermissionRequired]

variable {classifier : Classifier} {issue : Issue}

/-- The kind of an issue gives a code about something reserved only if the issue is about that. -/
theorem code_baseVerdict_of_reserved (hcode : (classifier.baseVerdict issue).code ∈ reservedCodes) :
    ∃ listed ordinary, issue.kind.reserved? = some (listed, ordinary) ∧
      (classifier.baseVerdict issue).code =
        reservedCode classifier.privileged listed ordinary := by
  unfold baseVerdict at hcode ⊢
  cases hkind : issue.kind with
  | privileged listed => exact ⟨listed, _, rfl, rfl⟩
  | privilegedPermissions listed =>
      by_cases htop : issue.IsBelow "permissions"
      · exact ⟨listed, _, rfl, by simp only [htop, if_true]⟩
      · simp [hkind, htop, reservedCodes] at hcode
  | deprecated =>
      cases hreplacement : Catalog.replacement? issue.pointer with
      | none => simp [hkind, hreplacement, reservedCodes] at hcode
      | some code =>
          obtain rfl := Catalog.eq_of_replacement? hreplacement
          simp [hkind, hreplacement, reservedCodes] at hcode
  | minManifestVersion | maxManifestVersion =>
      by_cases hpath : issue.path = [.key "applications"] <;>
        simp [hkind, hpath, reservedCodes] at hcode
  | _ => simp [hkind, reservedCodes] at hcode

theorem badCode_not_reserved (list : PermissionList) : list.badCode ∉ reservedCodes := by
  cases list <;> decide

theorem itemCode_not_reserved (list : NameList) : list.itemCode ∉ reservedCodes := by
  cases list with
  | permissions list => cases list <;> decide
  | installOrigins => decide

/-- A finding about something reserved comes from an issue about that. -/
theorem code_of_mem_reservedCodes {found : Diagnostic}
    (hfound : classifier.classify issue = some found) (hcode : found.code ∈ reservedCodes) :
    ∃ listed ordinary, issue.kind.reserved? = some (listed, ordinary) ∧
      found.code = reservedCode classifier.privileged listed ordinary := by
  obtain ⟨row, hrow⟩ := classifier.exists_precedence issue
  rw [← code_of_precedence hrow hfound] at hcode ⊢
  cases hrow with
  | gatedItem => exact absurd hcode (by simp [reservedCodes])
  | nonString => exact absurd hcode (badCode_not_reserved _)
  | item => exact absurd hcode (itemCode_not_reserved _)
  | base => exact code_baseVerdict_of_reserved hcode

/-- Issues that do not bear on privileged permissions give no finding about these. -/
theorem withCode_classifyAll_unreserved {issues : List Issue} {code : Code}
    (hissues : ∀ issue ∈ issues, issue.Unreserved classifier.privileged)
    (hcode : code ∈ reservedCodes)
    (hfield : code = .manifestFieldPrivileged → classifier.privileged = true) :
    withCode code (classifier.classifyAll issues) = [] := by
  apply List.eq_nil_iff_forall_not_mem.mpr
  intro found hfound
  obtain ⟨hmem, rfl⟩ := mem_withCode.mp hfound
  obtain ⟨issue, hissue, hclassified⟩ := List.mem_filterMap.mp hmem
  obtain ⟨listed, ordinary, hreserved, hfoundCode⟩ := code_of_mem_reservedCodes hclassified hcode
  rcases hissues issue hissue with hnone | ⟨hordinary, other, hkind⟩
  · exact Option.some_ne_none _ (hreserved.symm.trans hnone)
  · -- the property of an ordinary add-on has the code of properties
    obtain ⟨rfl, rfl⟩ : other = listed ∧ Code.manifestFieldPrivileged = ordinary := by
      simpa [hkind, Issue.Kind.reserved?] using hreserved
    rw [hordinary] at hfoundCode hfield
    exact absurd (hfield hfoundCode) (by decide)

/-- The finding that the rule about privileged permissions gives. -/
def permissionsFinding (classifier : Classifier) (listed : List String) : Diagnostic :=
  classifier.catalog.render
    (reservedCode classifier.privileged listed .manifestPermissionsPrivileged)
    [("path", "/permissions"), ("permissions", String.intercalate ", " listed),
      ("permission", classifier.requiredPermission)]

theorem classify_permissionsIssue (classifier : Classifier) (listed : List String)
    (value : Option Json) (message : String) :
    classifier.classify
        (Issue.atPointer (.privilegedPermissions listed) "/permissions" value message) =
      some (classifier.permissionsFinding listed) := by
  let issue := Issue.atPointer (.privilegedPermissions listed) "/permissions" value message
  have hpath : issue.path = [.key "permissions"] :=
    show Json.Path.ofPointer "/permissions" = _ by decide
  have htop : issue.IsBelow "permissions" := ⟨[], hpath⟩
  have hpointer : issue.pointer = "/permissions" := by rw [Issue.pointer, hpath]; decide
  have hgate : ∀ list position, ¬issue.GatedItem list position := by
    rintro list position ⟨hkind | hkind, -⟩ <;> cases hkind
  have hstring : ∀ list, ¬issue.NonStringBelow list := by
    rintro list ⟨-, ⟨rest, hlist⟩, hbelow⟩
    rw [hpath, List.cons.injEq, Json.Path.Step.key.injEq] at hlist
    cases list with
    | permissions => exact hbelow rfl
    | optionalPermissions | hostPermissions => exact absurd hlist.1 (by decide)
  have hitem : ∀ (list : NameList) position, ¬issue.IsItem list.key position := by
    intro list position h
    rw [Issue.IsItem, hpath] at h
    simp at h
  have hverdict : classifier.verdict issue =
      ⟨reservedCode classifier.privileged listed .manifestPermissionsPrivileged,
        classifier.reservedValues issue listed, none⟩ := by
    rw [verdict_of_precedence (.base hgate hstring hitem), baseVerdict]
    exact if_pos htop
  have hkept : suppresses classifier.manifestVersion
      (reservedCode classifier.privileged listed .manifestPermissionsPrivileged) = false := by
    unfold reservedCode
    split <;> simp [suppresses]
  show classifier.classify issue = _
  rw [classify, hverdict, reservedValues, hpointer]
  simp only [hkept]
  rfl

/-- To an ordinary add-on the standard message names the permissions that are listed. -/
theorem message_permissionsFinding {classifier : Classifier} (hcatalog : classifier.catalog = .standard)
    (hordinary : classifier.privileged = false) (listed : List String) :
    (classifier.permissionsFinding listed).message =
      "Privileged permissions requested by a non-privileged add-on: " ++
        String.intercalate ", " listed := by
  rw [permissionsFinding, hcatalog, hordinary]
  show fill _ (Catalog.standardTemplate .manifestPermissionsPrivileged).message = _
  exact fill_of_last "permissions" (by decide) (by decide) (by decide) (by rfl)

end Classifier

namespace Linter

variable {linter : Linter} {annotations : Annotations} {validator : Schema.Validator}
  {context : LintContext} {package : Package} {document : Json} {manifest : Manifest} {code : Code}

/-- The findings that the rule about privileged permissions gives. -/
def permissionsFindings (linter : Linter) (annotations : Annotations) (context : LintContext)
    (document : Json) (manifest : Manifest) : List Diagnostic :=
  if annotations.permissionsFail context.privileged document then
    [(linter.classifier context manifest).permissionsFinding
      (annotations.listedPermissions document)]
  else []

/-- The findings about the document that bear on privileged permissions are those of the rule. -/
theorem withCode_documentFindings (hvalidate : linter.validate = annotations.validate validator)
    (hcode : code ∈ Classifier.reservedCodes)
    (hfield : code = .manifestFieldPrivileged → context.privileged = true) :
    withCode code (linter.documentFindings context document manifest) =
      withCode code (linter.permissionsFindings annotations context document manifest) := by
  obtain ⟨others, hcheck, hothers⟩ :=
    annotations.exists_validate_eq_append validator context.privileged document
  have hnone : withCode code ((linter.classifier context manifest).classifyAll others) = [] :=
    Classifier.withCode_classifyAll_unreserved hothers hcode hfield
  have hlast : (linter.classifier context manifest).classifyAll
      (annotations.permissionsIssue? context.privileged document).toList =
        linter.permissionsFindings annotations context document manifest := by
    rw [Annotations.permissionsIssue?, permissionsFindings]
    split
    · rw [Option.toList_some, Classifier.classifyAll, List.filterMap_cons,
        Classifier.classify_permissionsIssue]
      rfl
    · rfl
  calc withCode code (linter.documentFindings context document manifest)
    _ = withCode code ((linter.classifier context manifest).classifyAll
          (others ++ (annotations.permissionsIssue? context.privileged document).toList)) := by
        rw [documentFindings, hvalidate, hcheck]
    _ = withCode code (linter.permissionsFindings annotations context document manifest) := by
        rw [Classifier.classifyAll, List.filterMap_append, withCode_append,
          ← Classifier.classifyAll, ← Classifier.classifyAll, hnone, hlast, List.nil_append]

/-- A report bears on privileged permissions by the finding of the rule about them only. -/
theorem withCode_report (hvalidate : linter.validate = annotations.validate validator)
    (hcode : code ∈ Classifier.reservedCodes)
    (hfield : code = .manifestFieldPrivileged → context.privileged = true) :
    withCode code (linter.report context package document manifest).diagnostics =
      withCode code (linter.permissionsFindings annotations context document manifest) := by
  have hlater : code ∉ laterCodes :=
    (show ∀ code ∈ Classifier.reservedCodes, code ∉ laterCodes by decide +kernel) code hcode
  have hlog : withCode code (linter.log context package document manifest).entries =
      withCode code (linter.permissionsFindings annotations context document manifest) := by
    rw [linter.withCode_log context package hlater, withCode_documentFindings hvalidate hcode hfield]
  have hseverity : ∀ diagnostic ∈
      withCode code (linter.log context package document manifest).entries,
      diagnostic.severity = (linter.catalog.template code).severity := by
    intro diagnostic hdiagnostic
    rw [hlog] at hdiagnostic
    obtain ⟨hmem, rfl⟩ := mem_withCode.mp hdiagnostic
    rw [permissionsFindings] at hmem
    split at hmem
    · obtain rfl := List.mem_singleton.mp hmem
      rfl
    · cases hmem
  rw [report, Report.withCode_ofLog hseverity, hlog]

section Verdict

theorem length_withCode_report_of_ordinary
    (hvalidate : linter.validate = annotations.validate validator)
    (hordinary : context.privileged = false) (hcode : code ∈ Classifier.reservedCodes)
    (hne : code ≠ .manifestFieldPrivileged) :
    (withCode code (linter.report context package document manifest).diagnostics).length =
      if annotations.listedPermissions document ≠ [] ∧ code = .manifestPermissionsPrivileged then 1
      else 0 := by
  have hfail : annotations.permissionsFail context.privileged document = true ↔
      annotations.listedPermissions document ≠ [] := by
    simp [Annotations.permissionsFail, hordinary]
  have hfinding : ∀ listed, ((linter.classifier context manifest).permissionsFinding listed).code =
      .manifestPermissionsPrivileged := by
    intro listed
    simp [Classifier.permissionsFinding, Classifier.reservedCode, classifier, hordinary]
  rw [withCode_report hvalidate hcode fun h => absurd h hne, permissionsFindings]
  by_cases hlisted : annotations.listedPermissions document = []
  · rw [if_neg (mt hfail.mp (not_not.mpr hlisted)), if_neg (fun h => h.1 hlisted)]
    rfl
  · rw [if_pos (hfail.mpr hlisted), length_withCode_singleton, hfinding]
    simp only [ne_eq, hlisted, not_false_eq_true, true_and, eq_comm]

theorem length_withCode_report_of_privileged
    (hvalidate : linter.validate = annotations.validate validator)
    (hprivileged : context.privileged = true) (hcode : code ∈ Classifier.reservedCodes) :
    (withCode code (linter.report context package document manifest).diagnostics).length =
      if annotations.requiredPermission ∉ annotations.listedPermissions document ∧
        code = (if annotations.listedPermissions document = [] then .privilegedFeaturesRequired
          else .mozillaAddonsPermissionRequired) then 1 else 0 := by
  have hfail : annotations.permissionsFail context.privileged document = true ↔
      annotations.requiredPermission ∉ annotations.listedPermissions document := by
    simp [Annotations.permissionsFail, hprivileged]
  have hfinding : ∀ listed, ((linter.classifier context manifest).permissionsFinding listed).code =
      if listed = [] then .privilegedFeaturesRequired else .mozillaAddonsPermissionRequired := by
    intro listed
    cases listed <;> simp [Classifier.permissionsFinding, Classifier.reservedCode, classifier,
      hprivileged]
  rw [withCode_report hvalidate hcode fun _ => hprivileged, permissionsFindings]
  by_cases hrequired : annotations.requiredPermission ∈ annotations.listedPermissions document
  · rw [if_neg (mt hfail.mp (not_not.mpr hrequired)), if_neg (fun h => h.1 hrequired)]
    rfl
  · rw [if_pos (hfail.mpr hrequired), length_withCode_singleton, hfinding]
    simp only [hrequired, not_false_eq_true, true_and, eq_comm]

theorem message_of_mem_report (hvalidate : linter.validate = annotations.validate validator)
    (hcatalog : linter.catalog = .standard) (hordinary : context.privileged = false)
    {diagnostic : Diagnostic} (hdiagnostic : diagnostic ∈ withCode .manifestPermissionsPrivileged
      (linter.report context package document manifest).diagnostics) :
    diagnostic.message = "Privileged permissions requested by a non-privileged add-on: " ++
      String.intercalate ", " (annotations.listedPermissions document) := by
  rw [withCode_report hvalidate (by decide) fun h => absurd h (by decide), mem_withCode,
    permissionsFindings] at hdiagnostic
  obtain ⟨hmem, -⟩ := hdiagnostic
  split at hmem
  · rw [List.mem_singleton.mp hmem]
    exact Classifier.message_permissionsFinding hcatalog hordinary _
  · cases hmem

/-- The verdict on privileged permissions. An ordinary add-on that lists some gets one finding, which
names them; a privileged one gets one finding if it lists none, and another one if it lists some and
the required one is not among them. -/
theorem lint_privileged_permissions (linter : Linter) (annotations : Annotations)
    (validator : Schema.Validator) (context : LintContext) (package : Package)
    (properties : Json.Members) :
    let listed := (Json.stringsOf (properties.get? "permissions")).filter
      annotations.privilegedPermissions.contains
    ∃ report,
      { linter with validate := annotations.validate validator }.lint context package
        (.object properties) = .ok report ∧
      let count := fun code => (withCode code report.diagnostics).length
      (context.privileged = false →
        count .manifestPermissionsPrivileged = (if listed = [] then 0 else 1) ∧
        count .privilegedFeaturesRequired = 0 ∧ count .mozillaAddonsPermissionRequired = 0 ∧
        (linter.catalog = .standard →
          ∀ diagnostic ∈ withCode .manifestPermissionsPrivileged report.diagnostics,
            diagnostic.message = "Privileged permissions requested by a non-privileged add-on: " ++
              String.intercalate ", " listed)) ∧
      (context.privileged = true →
        count .privilegedFeaturesRequired = (if listed = [] then 1 else 0) ∧
        count .mozillaAddonsPermissionRequired =
          (if listed ≠ [] ∧ annotations.requiredPermission ∉ listed then 1 else 0) ∧
        count .manifestPermissionsPrivileged = 0 ∧ count .manifestFieldPrivileged = 0) := by
  intro listed
  generalize hchecked : { linter with validate := annotations.validate validator } = checked
  have hvalidate : checked.validate = annotations.validate validator := by rw [← hchecked]
  have hcatalog : checked.catalog = linter.catalog := by rw [← hchecked]
  have hlisted : annotations.listedPermissions (.object properties) = listed := rfl
  refine ⟨_, lint_object checked context package properties, ?_⟩
  intro count
  constructor
  · intro hordinary
    have hcount : ∀ code ∈ Classifier.reservedCodes, code ≠ .manifestFieldPrivileged →
        count code = if listed ≠ [] ∧ code = .manifestPermissionsPrivileged then 1 else 0 :=
      fun code hcode hne => length_withCode_report_of_ordinary hvalidate hordinary hcode hne
    rw [hcount _ (by decide) (by decide), hcount _ (by decide) (by decide),
      hcount _ (by decide) (by decide)]
    refine ⟨by simp, by simp, by simp, fun hstandard diagnostic hdiagnostic => ?_⟩
    rw [message_of_mem_report hvalidate (hcatalog.trans hstandard) hordinary hdiagnostic, hlisted]
  · intro hprivileged
    have hcount : ∀ code ∈ Classifier.reservedCodes,
        count code = if annotations.requiredPermission ∉ listed ∧
          code = (if listed = [] then .privilegedFeaturesRequired
            else .mozillaAddonsPermissionRequired) then 1 else 0 :=
      fun code hcode => length_withCode_report_of_privileged hvalidate hprivileged hcode
    rw [hcount _ (by decide), hcount _ (by decide), hcount _ (by decide), hcount _ (by decide)]
    by_cases hnone : listed = [] <;> simp [hnone]

/-- An ordinary add-on that lists two privileged permissions between others is told both. -/
theorem lint_privileged_permissions_ordinary :
    let items := [Json.string "telemetry", .string "tabs", .null, .string "networkStatus"]
    let properties : Json.Members := [("permissions", .array items)]
    LintContext.standard.privileged = false ∧ standard.catalog = .standard ∧
      ∃ report, standard.lint .standard MemoryPackage.empty.toPackage (.object properties) =
          .ok report ∧
        (withCode .manifestPermissionsPrivileged report.diagnostics).length = 1 ∧
        ∀ diagnostic ∈ withCode .manifestPermissionsPrivileged report.diagnostics,
          diagnostic.message = "Privileged permissions requested by a non-privileged add-on: " ++
            String.intercalate ", " ["telemetry", "networkStatus"] := by
  intro items properties
  have hlisted : (Json.stringsOf (properties.get? "permissions")).filter
      Annotations.standard.privilegedPermissions.contains = ["telemetry", "networkStatus"] := by
    decide
  obtain ⟨report, hlint, hordinary, -⟩ := lint_privileged_permissions standard .standard
    Schema.manifest.violations .standard MemoryPackage.empty.toPackage properties
  obtain ⟨hcount, -, -, hmessage⟩ := hordinary rfl
  rw [hlisted] at hcount hmessage
  exact ⟨rfl, rfl, report, hlint, hcount, hmessage rfl⟩

end Verdict

section Required

variable {properties : Json.Members} {items : List Json}

/-- Requesting the required permission beside a privileged one satisfies the rule, and is not
reported, exactly if the required permission is one of the privileged permissions itself. -/
theorem requested_permission_suffices_iff (linter : Linter) (annotations : Annotations)
    (validator : Schema.Validator) (context : LintContext) (package : Package)
    (hpermissions : properties.get? "permissions" = some (.array items))
    (hrequested : .string annotations.requiredPermission ∈ items)
    (hprivileged : ∃ name ∈ annotations.privilegedPermissions, .string name ∈ items) :
    ((∀ issue ∈ annotations.validate validator true (.object properties),
        ∀ listed, issue.kind ≠ .privilegedPermissions listed) ↔
      annotations.requiredPermission ∈ annotations.privilegedPermissions) ∧
    ∃ report,
      { linter with validate := annotations.validate validator }.lint
        { context with privileged := true } package (.object properties) = .ok report ∧
      (withCode .mozillaAddonsPermissionRequired report.diagnostics = [] ↔
        annotations.requiredPermission ∈ annotations.privilegedPermissions) := by
  have hrequired : annotations.requiredPermission ∈
      annotations.listedPermissions (.object properties) ↔
        annotations.requiredPermission ∈ annotations.privilegedPermissions := by
    rw [Annotations.mem_listedPermissions hpermissions]
    exact and_iff_right hrequested
  have hlisted : annotations.listedPermissions (.object properties) ≠ [] := by
    obtain ⟨name, hname, hitem⟩ := hprivileged
    exact List.ne_nil_of_mem ((Annotations.mem_listedPermissions hpermissions).mpr ⟨hitem, hname⟩)
  refine ⟨?_, _, lint_object _ _ package properties, ?_⟩
  · rw [annotations.forall_kind_ne_iff, ← hrequired]
    simp [Annotations.permissionsFail]
  · rw [← List.length_eq_zero_iff, length_withCode_report_of_privileged rfl rfl (by decide),
      if_neg hlisted, ← hrequired]
    simp

/-- A privileged add-on that requests the required permission, which is a privileged one, passes. -/
theorem requested_permission_suffices_standard :
    let items := [Json.string "mozillaAddons", .string "telemetry"]
    let properties : Json.Members := [("permissions", .array items)]
    properties.get? "permissions" = some (.array items) ∧
      .string Annotations.standard.requiredPermission ∈ items ∧
      (∃ name ∈ Annotations.standard.privilegedPermissions, .string name ∈ items) ∧
      ∀ issue ∈ Annotations.standard.check Schema.manifest true (.object properties),
        ∀ listed, issue.kind ≠ .privilegedPermissions listed := by
  intro items properties
  have hrequested : .string Annotations.standard.requiredPermission ∈ items :=
    List.mem_cons_self ..
  have hprivileged : ∃ name ∈ Annotations.standard.privilegedPermissions, .string name ∈ items :=
    ⟨"telemetry", by decide, List.mem_cons_of_mem _ (List.mem_cons_self ..)⟩
  have hpermissions : properties.get? "permissions" = some (.array items) := rfl
  obtain ⟨hpasses, -⟩ := requested_permission_suffices_iff standard .standard
    Schema.manifest.violations .standard MemoryPackage.empty.toPackage hpermissions hrequested
    hprivileged
  exact ⟨hpermissions, hrequested, hprivileged, hpasses.mpr (by decide)⟩

/-- Where only another permission is a privileged one, a privileged add-on that requests both is still
told to request the required one. -/
theorem requested_permission_refused :
    let annotations := { Annotations.standard with privilegedPermissions := ["telemetry"] }
    let items := [Json.string "mozillaAddons", .string "telemetry"]
    let properties : Json.Members := [("manifest_version", .ofNat 2), ("name", .string "Demo"),
      ("permissions", .array items), ("version", .string "1.0")]
    properties.get? "permissions" = some (.array items) ∧
      .string annotations.requiredPermission ∈ items ∧
      (∃ name ∈ annotations.privilegedPermissions, .string name ∈ items) ∧
      (annotations.check Schema.manifest true (.object properties)).map Issue.kind =
        [.privilegedPermissions ["telemetry"]] ∧
      ∃ report, (ofAnnotations annotations).lint { LintContext.standard with privileged := true }
          MemoryPackage.empty.toPackage (.object properties) = .ok report ∧
        report.valid = false ∧
        report.errors.map Diagnostic.code = [.mozillaAddonsPermissionRequired] := by
  intro annotations items properties
  exact ⟨rfl, List.mem_cons_self .., ⟨"telemetry", by decide, by simp [items]⟩, by decide +kernel,
    _, lint_object _ _ _ properties, by decide +kernel, by decide +kernel⟩

end Required

end Linter
end ExtensionLint
