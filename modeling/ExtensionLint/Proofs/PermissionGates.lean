import ExtensionLint.Package.Memory
import ExtensionLint.Proofs.AnnotationPaths
import ExtensionLint.Proofs.Filling
import ExtensionLint.Proofs.Findings
import ExtensionLint.Proofs.Lists

/-!
The gates on permissions. Every item of a permission list that is a gated permission raises an issue for
each of its gates that excludes the version of the manifest. Such an issue is told from all others by
its path, so it becomes a finding of a code of its own, which no later phase reports; and the report has
these findings in the order of the lists, the items and the gates.
-/

namespace ExtensionLint

namespace VersionRange

/-- Holds of the versions outside a range. -/
def Excludes (range : VersionRange) (version : Nat) : Prop :=
  (∃ min ∈ range.min, version < min) ∨ ∃ max ∈ range.max, max < version

instance (range : VersionRange) (version : Nat) : Decidable (range.Excludes version) := by
  unfold Excludes
  infer_instance

/-- What a range demands where it excludes a version, the lower bound first. -/
inductive Demands (range : VersionRange) (version : Nat) : String → Prop where
  | later {min : Nat} (hmin : min ∈ range.min) (hbelow : version < min) :
      Demands range version ("must be used with manifest_version " ++ toString min ++ " or later")
  | earlier {max : Nat} (hmin : ∀ min ∈ range.min, min ≤ version) (hmax : max ∈ range.max)
      (habove : max < version) :
      Demands range version ("must be used with manifest_version " ++ toString max ++ " or earlier")

end VersionRange

/-- A gate that an item of a permission list fails. -/
structure GateBreach where
  list : String
  position : Nat
  gate : PermissionGate
  deriving DecidableEq, Repr

/-- Holds of the finding about a breach of a gate. -/
def GateBreach.ReportedAs (catalog : Catalog) (version : Nat) (breach : GateBreach)
    (found : Diagnostic) : Prop :=
  ∃ demand, breach.gate.range.Demands version demand ∧
    found = catalog.render .manifestPermissionUnsupported
      [("field", breach.list), ("value", breach.gate.permission), ("detail", demand)]

/-- The standard message names the list and the permission. -/
theorem GateBreach.ReportedAs.message {version : Nat} {breach : GateBreach} {found : Diagnostic}
    (h : breach.ReportedAs .standard version found) :
    ∃ demand, breach.gate.range.Demands version demand ∧
      found.message =
        "/" ++ breach.list ++ ": \"" ++ breach.gate.permission ++ "\" " ++ demand := by
  obtain ⟨demand, hdemands, rfl⟩ := h
  refine ⟨demand, hdemands, ?_⟩
  have htemplate : (Catalog.standardTemplate .manifestPermissionUnsupported).message.toList =
      "/".toList ++ '{' :: ("field".toList ++ '}' :: (": \"".toList ++ '{' ::
        ("value".toList ++ '}' :: ("\" ".toList ++ '{' :: ("detail".toList ++ ['}']))))) := by
    decide
  show fill _ (Catalog.standardTemplate .manifestPermissionUnsupported).message = _
  rw [fill, htemplate, Template.fillText_append (by decide),
    Template.fillText_placeholder (by decide) rfl, Template.fillText_append (by decide),
    Template.fillText_placeholder (by decide) rfl, Template.fillText_append (by decide),
    Template.fillText_placeholder (by decide) rfl, Template.fillText]
  apply String.toList_injective
  simp

theorem Schema.Violation.not_isGate_toIssue (violation : Violation) : ¬violation.toIssue.IsGate := by
  rw [toIssue]
  cases violation.fault <;> rintro (h | h) <;> cases h

/-- Holds of pointers that lead below a list of permissions. -/
def Json.Pointer.BelowPermissions (pointer : String) : Prop :=
  match tokens? pointer with
  | some (name :: _ :: _) => String.ofList name ∈ Issue.permissionLists
  | _ => False

instance (pointer : String) : Decidable (Json.Pointer.BelowPermissions pointer) := by
  unfold Json.Pointer.BelowPermissions
  split <;> infer_instance

namespace Annotations

def breachesAt (annotations : Annotations) (version : Nat) (list : String) (position : Nat)
    (item : Json) : List GateBreach :=
  annotations.permissionGates.filterMap fun gate =>
    if item.string? = some gate.permission ∧ gate.range.Excludes version then
      some ⟨list, position, gate⟩
    else none

/-- The breaches of gates by a document: list by list, item by item and gate by gate. -/
def breaches (annotations : Annotations) (document : Json) : List GateBreach :=
  gatedLists.flatMap fun list =>
    (((document.get? list).bind Json.items?).getD []).zipIdx.flatMap fun (item, position) =>
      annotations.breachesAt (Manifest.declaredVersion document) list position item

section Ranges

variable {range : VersionRange} {version : Nat} {pointer : String} {value : Json}

/-- A range raises an issue about a version that it excludes. -/
theorem rangeIssue?_of_excludes (h : range.Excludes version) :
    ∃ issue, rangeIssue? range version pointer value = some issue ∧ issue.IsGate ∧
      range.Demands version issue.message := by
  rw [rangeIssue?]
  split
  · next hmin =>
      obtain ⟨hmin, hbelow⟩ := Option.filter_eq_some_iff.mp hmin
      exact ⟨_, rfl, .inl rfl, .later hmin (of_decide_eq_true hbelow)⟩
  · next hmin hmax =>
      obtain ⟨hmax, habove⟩ := Option.filter_eq_some_iff.mp hmax
      refine ⟨_, rfl, .inr rfl, .earlier ?_ hmax (of_decide_eq_true habove)⟩
      intro min hsome
      simpa using Option.filter_eq_none_iff.mp hmin min hsome
  · next hmin hmax =>
      rcases h with ⟨min, hsome, hbelow⟩ | ⟨max, hsome, habove⟩
      · exact absurd (decide_eq_true hbelow) (Option.filter_eq_none_iff.mp hmin min hsome)
      · exact absurd (decide_eq_true habove) (Option.filter_eq_none_iff.mp hmax max hsome)

theorem rangeIssue?_of_not_excludes (h : ¬range.Excludes version) :
    rangeIssue? range version pointer value = none := by
  rw [rangeIssue?]
  split
  · next hmin =>
      obtain ⟨hmin, hbelow⟩ := Option.filter_eq_some_iff.mp hmin
      exact absurd (.inl ⟨_, hmin, of_decide_eq_true hbelow⟩) h
  · next hmax =>
      obtain ⟨hmax, habove⟩ := Option.filter_eq_some_iff.mp hmax
      exact absurd (.inr ⟨_, hmax, of_decide_eq_true habove⟩) h
  · rfl

end Ranges

end Annotations

namespace Classifier

variable {classifier : Classifier} {issue : Issue}

/-- Only a gate on an item of a permission list gives the code of gates on permissions. -/
theorem gatedItem_of_code {found : Diagnostic} (hfound : classifier.classify issue = some found)
    (hcode : found.code = .manifestPermissionUnsupported) :
    ∃ list position, issue.GatedItem list position := by
  obtain ⟨row, hrow⟩ := classifier.exists_precedence issue
  rw [← code_of_precedence hrow hfound] at hcode
  cases hrow with
  | @gatedItem list position h => exact ⟨list, position, h⟩
  | @nonString list _ _ => cases list <;> cases hcode
  | @item list _ _ _ _ =>
      cases list with
      | permissions list => cases list <;> cases hcode
      | installOrigins => cases hcode
  | base =>
      have hkept : keptCodes.contains (classifier.baseVerdict issue).code = false :=
        baseVerdict_not_kept
      rw [hcode] at hkept
      cases hkept

theorem withCode_classifyAll_ungated {issues : List Issue}
    (h : ∀ issue ∈ issues, ∀ list position, ¬issue.GatedItem list position) :
    withCode .manifestPermissionUnsupported (classifier.classifyAll issues) = [] := by
  apply List.eq_nil_iff_forall_not_mem.mpr
  intro found hfound
  obtain ⟨hmem, hcode⟩ := mem_withCode.mp hfound
  obtain ⟨issue, hissue, hclassified⟩ := List.mem_filterMap.mp hmem
  obtain ⟨list, position, hgated⟩ := gatedItem_of_code hclassified hcode
  exact h issue hissue list position hgated

/-- A gate on an item of a permission list is classified by the row of gates, and is not dropped. -/
theorem classify_gatedItem {list : PermissionList} {position : Nat} {permission : String}
    (h : issue.GatedItem list position) (hvalue : issue.value = some (.string permission)) :
    classifier.classify issue = some (classifier.catalog.render .manifestPermissionUnsupported
      [("field", list.key), ("value", permission), ("detail", issue.message)]) := by
  have hshown : issue.shownValue = permission := by rw [Issue.shownValue, hvalue]
  rw [classify_eq_outcome, verdict_of_precedence (.gatedItem h), hshown]
  simp [outcome, Catalog.render]

end Classifier

namespace Annotations

variable {annotations : Annotations} {document : Json} {version : Nat} {list : String}
  {position : Nat}

/-- The issue of a gate on an item of a permission list becomes the finding about its breach. -/
theorem reportedAs_rangeIssue? (classifier : Classifier) (hlist : list ∈ gatedLists)
    (hposition : position ≤ Text.word64Max) {gate : PermissionGate}
    (hexcludes : gate.range.Excludes version) :
    ∃ found, (rangeIssue? gate.range version ("/" ++ list ++ "/" ++ toString position)
        (.string gate.permission)).bind classifier.classify = some found ∧
      GateBreach.ReportedAs classifier.catalog version ⟨list, position, gate⟩ found := by
  obtain ⟨issue, hissue, hgate, hdemands⟩ := rangeIssue?_of_excludes hexcludes
  obtain ⟨hpath, hvalue⟩ := rangeIssue?_place hissue
  have hknown : ∀ name ∈ gatedLists, name ∈ Issue.permissionLists := by decide
  obtain ⟨key, hkey⟩ := Issue.mem_permissionLists.mp (hknown list hlist)
  have hitem : issue.IsItem key.key position := by
    rw [Issue.IsItem, hkey]
    exact hpath.trans (Json.Pointer.ofPointer_itemPointer hlist hposition)
  refine ⟨_, ?_, issue.message, hdemands, rfl⟩
  rw [hissue, Option.bind_some, Classifier.classify_gatedItem ⟨hgate, hitem⟩ hvalue, hkey]

theorem forall₂_breachesAt (classifier : Classifier) (hlist : list ∈ gatedLists)
    (hposition : position ≤ Text.word64Max) (item : Json) :
    List.Forall₂ (GateBreach.ReportedAs classifier.catalog version)
      (annotations.breachesAt version list position item)
      (classifier.classifyAll (annotations.permissionGateIssues version list position item)) := by
  cases item with
  | string name =>
      rw [breachesAt, permissionGateIssues, Classifier.classifyAll, List.filterMap_filterMap,
        List.filterMap_filter]
      have hsame : List.Forall₂ Eq annotations.permissionGates annotations.permissionGates :=
        List.forall₂_refl _
      refine List.rel_filterMap ?_ hsame
      rintro gate _ rfl
      beta_reduce
      by_cases hname : gate.permission = name
      · subst hname
        by_cases hexcludes : gate.range.Excludes version
        · obtain ⟨found, hfound, hreported⟩ :=
            reportedAs_rangeIssue? classifier hlist hposition hexcludes
          rw [if_pos ⟨rfl, hexcludes⟩, if_pos (beq_self_eq_true _), hfound]
          exact .some hreported
        · rw [if_neg fun h => hexcludes h.2, if_pos (beq_self_eq_true _),
            rangeIssue?_of_not_excludes hexcludes]
          exact .none
      · have hother : (Json.string name).string? ≠ some gate.permission := fun h =>
          hname (Option.some.inj h).symm
        rw [if_neg fun h => hother h.1, if_neg (by simpa using hname)]
        exact .none
  | _ => simp [breachesAt, permissionGateIssues, Json.string?, Classifier.classifyAll]

/-- The findings about the items of the permission lists are those about the breaches. -/
theorem forall₂_breaches (annotations : Annotations) (classifier : Classifier)
    (hlists : IndexableLists document) :
    List.Forall₂ (GateBreach.ReportedAs classifier.catalog (Manifest.declaredVersion document))
      (annotations.breaches document)
      (classifier.classifyAll (gatedLists.flatMap (annotations.permissionListIssues document))) := by
  rw [Classifier.classifyAll, List.filterMap_flatMap]
  refine forall₂_flatMap fun list hlist => ?_
  rw [permissionListIssues, List.filterMap_flatMap]
  refine forall₂_flatMap fun ⟨item, position⟩ hentry => ?_
  obtain ⟨_, -, -, hposition⟩ := exists_items_of_mem_zipIdx hlists hlist hentry
  exact forall₂_breachesAt classifier hlist hposition item

theorem belowPermissions_of_ofPointer {pointer : String} {value : Json} {list : PermissionList}
    (hleads : document.pointer? pointer = some value)
    (hpath : Json.Path.ofPointer pointer = [.key list.key, .index position]) :
    Json.Pointer.BelowPermissions pointer := by
  obtain ⟨tokens, htokens, -⟩ := Option.bind_eq_some_iff.mp hleads
  rw [Json.Path.ofPointer] at hpath
  have hsegments := Json.Pointer.tokens?_eq_some htokens
  obtain ⟨first, others, hdrop, hfirst, hothers⟩ := List.map_eq_cons_iff.mp hpath
  obtain ⟨second, rest, rfl, -, -⟩ := List.map_eq_cons_iff.mp hothers
  have hname : String.ofList (Json.Pointer.unescape first) = list.key := by
    rw [Json.Path.Step.ofToken] at hfirst
    split at hfirst
    · cases hfirst
    · exact Json.Path.Step.key.inj hfirst
  rw [hdrop, List.map_cons, List.map_cons] at hsegments
  rw [Json.Pointer.BelowPermissions, htokens, hsegments]
  exact Issue.mem_permissionLists.mpr ⟨list, hname.symm⟩

/-- A breach is a gated permission at a position of a permission list, and a gate of that permission that
excludes the version of the manifest. -/
theorem mem_breaches_iff {breach : GateBreach} :
    breach ∈ annotations.breaches document ↔
      breach.list ∈ gatedLists ∧ breach.gate ∈ annotations.permissionGates ∧
        breach.gate.range.Excludes (Manifest.declaredVersion document) ∧
        ∃ items, document.get? breach.list = some (.array items) ∧
          items[breach.position]? = some (.string breach.gate.permission) := by
  simp only [breaches, breachesAt, List.mem_flatMap, List.mem_filterMap,
    Option.ite_none_right_eq_some, Option.some.injEq, Prod.exists, List.mem_zipIdx_iff_getElem?,
    Json.string?_eq_some]
  constructor
  · rintro ⟨list, hlist, _, position, hat, gate, hgate, ⟨rfl, hexcludes⟩, rfl⟩
    obtain ⟨items, hitems, -⟩ := Json.mem_getD_items.mp (List.mem_of_getElem? hat)
    rw [hitems] at hat
    exact ⟨hlist, hgate, hexcludes, items, hitems, hat⟩
  · rintro ⟨hlist, hgate, hexcludes, items, hitems, hat⟩
    refine ⟨breach.list, hlist, _, breach.position, ?_, breach.gate, hgate, ⟨rfl, hexcludes⟩, rfl⟩
    rw [hitems]
    exact hat

/-- Only gates on permissions raise issues about the items of permission lists, if no gate on a property
is about what is below such a list. -/
theorem exists_validate_eq_gates (validator : Schema.Validator) (privileged : Bool)
    (document : Json)
    (hgates : ∀ gate ∈ annotations.propertyGates, ¬Json.Pointer.BelowPermissions gate.pointer) :
    ∃ before after, annotations.validate validator privileged document =
        before ++ gatedLists.flatMap (annotations.permissionListIssues document) ++ after ∧
      ∀ issue ∈ before ++ after, ∀ list position, ¬issue.GatedItem list position := by
  let before := validator.issues document ++
    annotations.deprecated.filterMap (deprecatedIssue? document) ++
    annotations.propertyGates.filterMap (propertyGateIssue? document)
  let after := (if privileged then [] else annotations.privilegedProperties.filterMap
    (annotations.privilegedPropertyIssue? document)) ++
      (annotations.permissionsIssue? privileged document).toList
  refine ⟨before, after, by simp only [validate, issues, before, after, List.append_assoc], ?_⟩
  simp only [before, after, List.mem_append, List.mem_filterMap]
  rintro issue (((hschema | ⟨_, -, hdeprecated⟩) | ⟨gate, hgate, hissue⟩) |
    hprivileged | hpermissions) list position ⟨hkind, hitem⟩
  · obtain ⟨violation, -, rfl⟩ := List.mem_map.mp hschema
    exact violation.not_isGate_toIssue hkind
  · obtain ⟨value, -, rfl⟩ := Option.map_eq_some_iff.mp hdeprecated
    rcases hkind with h | h <;> cases h
  · obtain ⟨value, hvalue, hrange⟩ := Option.bind_eq_some_iff.mp hissue
    obtain ⟨hpath, -⟩ := rangeIssue?_place hrange
    exact hgates gate hgate (belowPermissions_of_ofPointer hvalue (hpath.symm.trans hitem))
  · cases privileged with
    | true => cases hprivileged
    | false =>
        obtain ⟨pointer, -, hproperty⟩ := List.mem_filterMap.mp hprivileged
        obtain ⟨value, -, rfl⟩ := Option.map_eq_some_iff.mp hproperty
        rcases hkind with h | h <;> cases h
  · rw [permissionsIssue?] at hpermissions
    split at hpermissions
    · obtain rfl := List.mem_singleton.mp hpermissions
      rcases hkind with h | h <;> cases h
    · cases hpermissions

end Annotations

namespace Linter

/-- Under the code of gates on permissions, the findings about a document are those about its
breaches. -/
theorem forall₂_documentFindings (linter : Linter) {annotations : Annotations}
    {validator : Schema.Validator} {context : LintContext} {document : Json} {manifest : Manifest}
    (hvalidate : linter.validate = annotations.validate validator)
    (hgates : ∀ gate ∈ annotations.propertyGates, ¬Json.Pointer.BelowPermissions gate.pointer)
    (hlists : Annotations.IndexableLists document) :
    List.Forall₂ (GateBreach.ReportedAs linter.catalog (Manifest.declaredVersion document))
      (annotations.breaches document) (withCode .manifestPermissionUnsupported
        (linter.documentFindings context document manifest)) := by
  let classifier := linter.classifier context manifest
  obtain ⟨before, after, hcheck, hungated⟩ :=
    Annotations.exists_validate_eq_gates validator context.privileged document hgates
  have hbefore : withCode .manifestPermissionUnsupported (classifier.classifyAll before) = [] :=
    Classifier.withCode_classifyAll_ungated fun issue h => hungated issue (List.mem_append_left _ h)
  have hafter : withCode .manifestPermissionUnsupported (classifier.classifyAll after) = [] :=
    Classifier.withCode_classifyAll_ungated fun issue h => hungated issue (List.mem_append_right _ h)
  have hfound := annotations.forall₂_breaches classifier hlists
  have hall : withCode .manifestPermissionUnsupported (classifier.classifyAll
      (Annotations.gatedLists.flatMap (annotations.permissionListIssues document))) =
        classifier.classifyAll
          (Annotations.gatedLists.flatMap (annotations.permissionListIssues document)) := by
    refine List.filter_eq_self.mpr fun found hmem => decide_eq_true ?_
    obtain ⟨breach, -, demand, -, rfl⟩ := exists_of_mem_of_forall₂ hfound hmem
    rfl
  rw [documentFindings, hvalidate, hcheck, Classifier.classifyAll, List.filterMap_append,
    List.filterMap_append, withCode_append, withCode_append, ← Classifier.classifyAll,
    ← Classifier.classifyAll, ← Classifier.classifyAll, hbefore, hafter, hall, List.nil_append,
    List.append_nil]
  exact hfound

/-- The report has one finding for each breach of a gate on a permission, in the order of the breaches,
and no other finding of their code, if no gate on a property is about what is below a permission list.
Under the standard catalog each names its list and its permission. -/
theorem lint_permission_gates (linter : Linter) (annotations : Annotations)
    (validator : Schema.Validator) (context : LintContext) (package : Package)
    {properties : Json.Members}
    (hgates : ∀ gate ∈ annotations.propertyGates, ¬Json.Pointer.BelowPermissions gate.pointer)
    (hlists : Annotations.IndexableLists (.object properties)) :
    ∃ report,
      { linter with validate := annotations.validate validator }.lint context package
        (.object properties) = .ok report ∧
      List.Forall₂
        (GateBreach.ReportedAs linter.catalog (Manifest.declaredVersion (.object properties)))
        (annotations.breaches (.object properties))
        (withCode .manifestPermissionUnsupported report.diagnostics) ∧
      (linter.catalog = .standard → List.Forall₂
        (fun breach found => ∃ demand,
          breach.gate.range.Demands (Manifest.declaredVersion (.object properties)) demand ∧
          found.message =
            "/" ++ breach.list ++ ": \"" ++ breach.gate.permission ++ "\" " ++ demand)
        (annotations.breaches (.object properties))
        (withCode .manifestPermissionUnsupported report.diagnostics)) := by
  let gated : Linter := { linter with validate := annotations.validate validator }
  let manifest := Manifest.ofProperties properties
  have hdocument : List.Forall₂
      (GateBreach.ReportedAs linter.catalog (Manifest.declaredVersion (.object properties)))
      (annotations.breaches (.object properties)) (withCode .manifestPermissionUnsupported
        (gated.documentFindings context (.object properties) manifest)) :=
    gated.forall₂_documentFindings rfl hgates hlists
  have hlog : withCode .manifestPermissionUnsupported
      (gated.log context package (.object properties) manifest).entries =
        withCode .manifestPermissionUnsupported
          (gated.documentFindings context (.object properties) manifest) :=
    gated.withCode_log context package (by decide +kernel)
  have hseverity : ∀ diagnostic ∈ withCode .manifestPermissionUnsupported
      (gated.log context package (.object properties) manifest).entries,
      diagnostic.severity = (linter.catalog.template .manifestPermissionUnsupported).severity := by
    rw [hlog]
    intro diagnostic hmem
    obtain ⟨breach, -, demand, -, rfl⟩ := exists_of_mem_of_forall₂ hdocument hmem
    rfl
  have hreport : List.Forall₂
      (GateBreach.ReportedAs linter.catalog (Manifest.declaredVersion (.object properties)))
      (annotations.breaches (.object properties)) (withCode .manifestPermissionUnsupported
        (gated.report context package (.object properties) manifest).diagnostics) := by
    rw [report, Report.withCode_ofLog hseverity, hlog]
    exact hdocument
  refine ⟨_, gated.lint_object context package properties, hreport, fun hcatalog => ?_⟩
  rw [hcatalog] at hreport
  exact hreport.imp fun breach found h => h.message

/-- A permission that is meant for version 3 and later is reported in a manifest of version 2. -/
theorem lint_permission_gates_scripting :
    let gate : PermissionGate := ⟨"scripting", ⟨some 3, none⟩⟩
    let annotations := { Annotations.standard with permissionGates := [gate] }
    let properties : Json.Members := [("manifest_version", .ofNat 2),
      ("permissions", .array [.string "tabs", .string "scripting"])]
    (∀ gate ∈ annotations.propertyGates, ¬Json.Pointer.BelowPermissions gate.pointer) ∧
      Annotations.IndexableLists (.object properties) ∧
      annotations.breaches (.object properties) = [⟨"permissions", 1, gate⟩] ∧
      ∃ report, (ofAnnotations annotations).lint .standard MemoryPackage.empty.toPackage
          (.object properties) = .ok report ∧
        List.Forall₂
          (fun breach found => ∃ demand,
            breach.gate.range.Demands (Manifest.declaredVersion (.object properties)) demand ∧
            found.message =
              "/" ++ breach.list ++ ": \"" ++ breach.gate.permission ++ "\" " ++ demand)
          (annotations.breaches (.object properties))
          (withCode .manifestPermissionUnsupported report.diagnostics) := by
  intro gate annotations properties
  have hgates : ∀ gate ∈ annotations.propertyGates,
      ¬Json.Pointer.BelowPermissions gate.pointer := by decide
  have hlists : Annotations.IndexableLists (.object properties) := by decide
  obtain ⟨report, hreport, -, hmessages⟩ := (ofAnnotations annotations).lint_permission_gates
    annotations Schema.manifest.violations .standard MemoryPackage.empty.toPackage hgates hlists
  exact ⟨hgates, hlists, by decide, report, hreport, hmessages rfl⟩

end Linter
end ExtensionLint
