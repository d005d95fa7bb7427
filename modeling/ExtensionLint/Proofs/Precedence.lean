import ExtensionLint.Issue.Classification
import ExtensionLint.Proofs.Pointer

/-!
The precedence of codes. An issue gets its code from the first of four rows that applies: a gate on
an item of a permission list, a value below such a list that is no string, an item of a list of
names, and last the kind of issue alone. Classification follows this table for every issue and
catalog, whether or not the finding is then dropped.
-/

namespace ExtensionLint

/-- A list of permissions. -/
inductive PermissionList where
  | permissions
  | optionalPermissions
  | hostPermissions
  deriving DecidableEq, Repr

namespace PermissionList

def key : PermissionList → String
  | permissions => "permissions"
  | optionalPermissions => "optional_permissions"
  | hostPermissions => "host_permissions"

/-- The code for a value in the list that is no string. -/
def badCode : PermissionList → Code
  | permissions => .manifestBadPermission
  | optionalPermissions => .manifestBadOptionalPermission
  | hostPermissions => .manifestBadHostPermission

end PermissionList

/-- A list of names: of permissions, or of origins. -/
inductive NameList where
  | permissions (list : PermissionList)
  | installOrigins
  deriving DecidableEq, Repr

namespace NameList

def key : NameList → String
  | permissions list => list.key
  | installOrigins => "install_origins"

/-- The code for an item of the list. -/
def itemCode : NameList → Code
  | permissions .permissions => .manifestPermissions
  | permissions .optionalPermissions => .manifestOptionalPermissions
  | permissions .hostPermissions => .manifestHostPermissions
  | installOrigins => .manifestInstallOrigins

end NameList

namespace Issue

/-- Holds of issues about the manifest version. -/
def IsGate (issue : Issue) : Prop :=
  issue.kind = .minManifestVersion ∨ issue.kind = .maxManifestVersion

/-- Holds of issues about one item of a top-level list. -/
def IsItem (issue : Issue) (key : String) (position : Nat) : Prop :=
  issue.path = [.key key, .index position]

/-- Holds of issues about a top-level property or something in it. -/
def IsBelow (issue : Issue) (key : String) : Prop :=
  ∃ rest, issue.path = .key key :: rest

theorem topLevel?_eq_some_iff {issue : Issue} {key : String} :
    issue.topLevel? = some key ↔ issue.IsBelow key := by
  rw [topLevel?, Json.Path.topLevel?.eq_def, IsBelow]
  split
  · next name rest hpath => simp [hpath]
  · next hpath =>
      constructor
      · intro h
        cases h
      · rintro ⟨rest, h⟩
        exact absurd h (hpath key rest)

instance (issue : Issue) (key : String) : Decidable (issue.IsBelow key) :=
  decidable_of_iff _ topLevel?_eq_some_iff

/-- Holds of issues that carry a value which is no string. -/
def HasNonString (issue : Issue) : Prop :=
  ∃ value, issue.value = some value ∧ value.isString = false

/-- Holds of the kinds of issue that look at a value below a permission list first. The rule about
privileged permissions speaks for the list `permissions` itself. -/
def LooksBelow (issue : Issue) (list : PermissionList) : Prop :=
  match issue.kind with
  | .type | .privileged _ | .other _ => True
  | .privilegedPermissions _ => list ≠ .permissions
  | _ => False

/-- The first row: a gate on an item of a permission list. -/
def GatedItem (issue : Issue) (list : PermissionList) (position : Nat) : Prop :=
  issue.IsGate ∧ issue.IsItem list.key position

/-- The second row: a value below a permission list that is no string. -/
def NonStringBelow (issue : Issue) (list : PermissionList) : Prop :=
  issue.HasNonString ∧ issue.IsBelow list.key ∧ issue.LooksBelow list

end Issue

namespace Classifier

open Issue (Verdict)

/-- What something reserved to privileged add-ons gives: nothing privileged is requested, the
required permission is missing, or the add-on is an ordinary one. -/
def reservedCode (privileged : Bool) (listed : List String) (ordinary : Code) : Code :=
  match privileged, listed with
  | true, [] => .privilegedFeaturesRequired
  | true, _ :: _ => .mozillaAddonsPermissionRequired
  | false, _ => ordinary

/-- The values for the texts about something reserved. -/
def reservedValues (classifier : Classifier) (issue : Issue) (listed : List String) :
    List (String × String) :=
  [("path", issue.pointer), ("permissions", String.intercalate ", " listed),
    ("permission", classifier.requiredPermission)]

/-- The last row: what the kind of issue alone gives. -/
def baseVerdict (classifier : Classifier) (issue : Issue) : Verdict :=
  let place := [("path", issue.pointer), ("detail", issue.message)]
  match issue.kind with
  | .required => ⟨.manifestFieldRequired, place, none⟩
  | .deprecated => match Catalog.replacement? issue.pointer with
    | some code => ⟨code, place, some issue.message⟩
    | none => ⟨.manifestFieldDeprecated, place, none⟩
  | .minManifestVersion | .maxManifestVersion =>
      if issue.path = [.key "applications"] then ⟨.applicationsInvalid, [], none⟩
      else ⟨.manifestFieldUnsupported, place, none⟩
  | .privilegedPermissions listed =>
      if issue.IsBelow "permissions" then
        ⟨reservedCode classifier.privileged listed .manifestPermissionsPrivileged,
          classifier.reservedValues issue listed, none⟩
      else ⟨.jsonInvalid, place, none⟩
  | .privileged listed =>
      ⟨reservedCode classifier.privileged listed .manifestFieldPrivileged,
        classifier.reservedValues issue listed, none⟩
  | .type => ⟨.manifestFieldInvalid, place, none⟩
  | .other _ => ⟨.jsonInvalid, place, none⟩

/-- The table of precedence. A row applies only where those above it do not. -/
inductive Precedence (classifier : Classifier) (issue : Issue) : Verdict → Prop where
  | gatedItem {list : PermissionList} {position : Nat} (h : issue.GatedItem list position) :
      Precedence classifier issue ⟨.manifestPermissionUnsupported,
        [("field", list.key), ("value", issue.shownValue), ("detail", issue.message)], none⟩
  | nonString {list : PermissionList} (hgate : ∀ list position, ¬issue.GatedItem list position)
      (h : issue.NonStringBelow list) :
      Precedence classifier issue ⟨list.badCode, [("detail", issue.message)], none⟩
  | item {list : NameList} {position : Nat} (hgate : ∀ list position, ¬issue.GatedItem list position)
      (hstring : ∀ list, ¬issue.NonStringBelow list) (h : issue.IsItem list.key position) :
      Precedence classifier issue ⟨list.itemCode, [("field", list.key),
        ("value", issue.shownValue), ("index", toString position)], none⟩
  | base (hgate : ∀ list position, ¬issue.GatedItem list position)
      (hstring : ∀ list, ¬issue.NonStringBelow list)
      (hitem : ∀ (list : NameList) position, ¬issue.IsItem list.key position) :
      Precedence classifier issue (classifier.baseVerdict issue)

/-- What becomes of a row. Findings about host permissions are dropped for manifest version 2. The
explanation of the template goes before the one that stands by. -/
def outcome (classifier : Classifier) (row : Verdict) : Option Diagnostic :=
  if classifier.manifestVersion = 2 ∧
      (row.code = .manifestHostPermissions ∨ row.code = .manifestBadHostPermission) then none
  else
    let template := classifier.catalog.template row.code
    some {
      code := row.code
      severity := template.severity
      message := fill row.values template.message
      description := (template.description.map (fill row.values)).or row.standby
      file := none }

end Classifier

/-- A deprecated property that has a code of its own has that of the older theme keys. -/
theorem Catalog.eq_of_replacement? {pointer : String} {code : Code}
    (h : replacement? pointer = some code) : .manifestThemeLwtAlias = code := by
  obtain ⟨before, after, hreplacements, _⟩ := List.lookup_eq_some_iff.mp h
  have hmem : (pointer, code) ∈ replacements := by
    rw [hreplacements]
    exact List.mem_append_right _ List.mem_cons_self
  simp only [replacements, List.mem_cons, Prod.mk.injEq, List.not_mem_nil, or_false] at hmem
  rcases hmem with ⟨_, rfl⟩ | ⟨_, rfl⟩ | ⟨_, rfl⟩ <;> rfl

namespace Issue

theorem mem_permissionLists {field : String} :
    field ∈ permissionLists ↔ ∃ list : PermissionList, list.key = field := by
  constructor
  · intro h
    simp only [permissionLists, List.mem_cons, List.not_mem_nil, or_false] at h
    rcases h with rfl | rfl | rfl
    · exact ⟨.permissions, rfl⟩
    · exact ⟨.optionalPermissions, rfl⟩
    · exact ⟨.hostPermissions, rfl⟩
  · rintro ⟨list, rfl⟩
    cases list <;> simp [permissionLists, PermissionList.key]

theorem badPermissionCode?_eq_some_iff {field : String} {code : Code} :
    badPermissionCode? field = some code ↔
      ∃ list : PermissionList, list.key = field ∧ list.badCode = code := by
  constructor
  · intro h
    simp only [badPermissionCode?, List.lookup_cons, List.lookup_nil] at h
    split at h
    · next hkey => exact ⟨.permissions, (eq_of_beq hkey).symm, Option.some.inj h⟩
    split at h
    · next hkey => exact ⟨.optionalPermissions, (eq_of_beq hkey).symm, Option.some.inj h⟩
    split at h
    · next hkey => exact ⟨.hostPermissions, (eq_of_beq hkey).symm, Option.some.inj h⟩
    · cases h
  · rintro ⟨list, rfl, rfl⟩
    cases list <;> rfl

theorem elementCode?_eq_some_iff {field : String} {code : Code} :
    elementCode? field = some code ↔ ∃ list : NameList, list.key = field ∧ list.itemCode = code := by
  constructor
  · intro h
    simp only [elementCode?, List.lookup_cons, List.lookup_nil] at h
    split at h
    · next hkey => exact ⟨.permissions .permissions, (eq_of_beq hkey).symm, Option.some.inj h⟩
    split at h
    · next hkey => exact ⟨.permissions .optionalPermissions, (eq_of_beq hkey).symm, Option.some.inj h⟩
    split at h
    · next hkey => exact ⟨.permissions .hostPermissions, (eq_of_beq hkey).symm, Option.some.inj h⟩
    split at h
    · next hkey => exact ⟨.installOrigins, (eq_of_beq hkey).symm, Option.some.inj h⟩
    · cases h
  · rintro ⟨list, rfl, rfl⟩
    rcases list with (_ | _ | _) | _ <;> rfl

theorem element?_eq_some_iff {issue : Issue} {field : String} {position : Nat} :
    issue.element? = some (field, position) ↔ issue.IsItem field position := by
  unfold element? IsItem
  split
  · next path => simp [path]
  · next hpath =>
      constructor
      · intro h
        cases h
      · intro h
        exact absurd h (hpath field position)

/-- The verdict on a value below a permission list is given exactly when there is one. -/
theorem badPermission?_eq_some_iff {issue : Issue} {verdict : Verdict} :
    issue.badPermission? = some verdict ↔
      issue.HasNonString ∧ ∃ list : PermissionList, issue.IsBelow list.key ∧
        verdict = ⟨list.badCode, [("detail", issue.message)], none⟩ := by
  unfold badPermission? HasNonString
  cases hvalue : issue.value with
  | none => simp
  | some value =>
      cases hstring : value.isString with
      | true => simp [hstring]
      | false =>
          simp only [Bool.false_eq_true, if_false, Option.map_eq_some_iff, Option.bind_eq_some_iff,
            badPermissionCode?_eq_some_iff, topLevel?_eq_some_iff, Option.some.injEq, exists_eq_left',
            hstring, true_and]
          constructor
          · rintro ⟨code, ⟨field, htop, list, rfl, rfl⟩, rfl⟩
            exact ⟨list, htop, rfl⟩
          · rintro ⟨list, htop, rfl⟩
            exact ⟨list.badCode, ⟨list.key, htop, list, rfl, rfl⟩, rfl⟩

/-- The pointer of the older settings is that of their key alone. -/
theorem pointer_eq_applications {issue : Issue} :
    issue.pointer = "/applications" ↔ issue.path = [.key "applications"] := by
  constructor
  · intro h
    have hsegments := Json.Path.segments_pointer issue.path
    have hpath : issue.path.map Json.Path.Step.write = ["applications".toList] := by
      rw [show issue.path.pointer = "/applications" from h] at hsegments
      exact (List.cons.inj hsegments).2.symm
    obtain ⟨step, hstep, hwrite⟩ := List.map_eq_singleton_iff.mp hpath
    rw [hstep, Json.Path.eq_key_of_write_eq (c := 'a') (by decide) (by decide) (by decide) hwrite]
    rfl
  · intro h
    rw [pointer, h]
    rfl

end Issue

namespace Classifier

open Issue (Verdict)

variable {classifier : Classifier} {issue : Issue}

theorem unsupported_of_isItem {list : PermissionList} {position : Nat}
    (h : issue.IsItem list.key position) :
    issue.unsupported = ⟨.manifestPermissionUnsupported,
      [("field", list.key), ("value", issue.shownValue), ("detail", issue.message)], none⟩ := by
  have hlist : list.key ∈ Issue.permissionLists := Issue.mem_permissionLists.mpr ⟨list, rfl⟩
  rw [Issue.unsupported, Issue.element?_eq_some_iff.mpr h]
  simp [hlist, Verdict.plain]

/-- A gate elsewhere than on an item of a permission list gives what its kind gives. -/
theorem unsupported_of_not_isItem
    (h : ∀ (list : PermissionList) position, ¬issue.IsItem list.key position) :
    issue.unsupported = if issue.path = [.key "applications"] then ⟨.applicationsInvalid, [], none⟩
      else ⟨.manifestFieldUnsupported, issue.placeValues, none⟩ := by
  rw [Issue.unsupported]
  cases helement : issue.element? with
  | none => simp only [Issue.pointer_eq_applications, Verdict.plain]
  | some element =>
      obtain ⟨field, position⟩ := element
      have hitem : issue.path = [.key field, .index position] :=
        Issue.element?_eq_some_iff.mp helement
      have hlist : field ∉ Issue.permissionLists := by
        intro hmem
        obtain ⟨list, rfl⟩ := Issue.mem_permissionLists.mp hmem
        exact h list position hitem
      simp [hlist, hitem, Verdict.plain]

theorem privilegedVerdict_eq (listed : List String) (ordinary : Code) :
    classifier.privilegedVerdict listed ordinary issue =
      ⟨reservedCode classifier.privileged listed ordinary,
        classifier.reservedValues issue listed, none⟩ := by
  cases hprivileged : classifier.privileged <;> cases listed <;>
    simp [privilegedVerdict, reservedCode, reservedValues, Verdict.plain, hprivileged]

theorem firstVerdict_of_gatedItem {list : PermissionList} {position : Nat}
    (h : issue.GatedItem list position) :
    classifier.firstVerdict issue = ⟨.manifestPermissionUnsupported,
      [("field", list.key), ("value", issue.shownValue), ("detail", issue.message)], none⟩ := by
  obtain ⟨hkind | hkind, hitem⟩ := h <;>
    rw [firstVerdict, hkind] <;> exact unsupported_of_isItem hitem

theorem firstVerdict_of_nonStringBelow {list : PermissionList} (h : issue.NonStringBelow list) :
    classifier.firstVerdict issue = ⟨list.badCode, [("detail", issue.message)], none⟩ := by
  obtain ⟨hvalue, htop, hkind⟩ := h
  have hbad : issue.badPermission? = some ⟨list.badCode, [("detail", issue.message)], none⟩ :=
    Issue.badPermission?_eq_some_iff.mpr ⟨hvalue, list, htop, rfl⟩
  have htopLevel := Issue.topLevel?_eq_some_iff.mpr htop
  unfold Issue.LooksBelow at hkind
  unfold firstVerdict
  split <;> simp_all
  have hkey : list.key ≠ "permissions" := by
    cases list <;> simp_all [PermissionList.key]
  simp [hkey]

theorem badPermission?_eq_none (h : ∀ list, ¬issue.NonStringBelow list)
    (hkind : ∀ list : PermissionList, issue.IsBelow list.key → issue.LooksBelow list) :
    issue.badPermission? = none := by
  rw [Option.eq_none_iff_forall_ne_some]
  intro verdict hverdict
  obtain ⟨hvalue, list, htop, _⟩ := Issue.badPermission?_eq_some_iff.mp hverdict
  exact h list ⟨hvalue, htop, hkind list htop⟩

theorem firstVerdict_of_base (hgate : ∀ list position, ¬issue.GatedItem list position)
    (hstring : ∀ list, ¬issue.NonStringBelow list) :
    classifier.firstVerdict issue = classifier.baseVerdict issue := by
  unfold firstVerdict baseVerdict
  simp only [Issue.topLevel?_eq_some_iff]
  cases hkind : issue.kind with
  | required => rfl
  | deprecated =>
      simp only [Issue.deprecatedVerdict]
      cases Catalog.replacement? issue.pointer <;> rfl
  | minManifestVersion =>
      exact unsupported_of_not_isItem fun list position h => hgate list position ⟨.inl hkind, h⟩
  | maxManifestVersion =>
      exact unsupported_of_not_isItem fun list position h => hgate list position ⟨.inr hkind, h⟩
  | privileged listed =>
      have hbad := badPermission?_eq_none hstring fun list _ => by simp [Issue.LooksBelow, hkind]
      simp only [hbad, Option.getD_none, privilegedVerdict_eq]
  | privilegedPermissions listed =>
      by_cases htop : issue.IsBelow "permissions"
      · simp only [htop, if_true, privilegedVerdict_eq]
      · have hbad := badPermission?_eq_none hstring fun list hlist => by
          have hne : list ≠ .permissions := by
            rintro rfl
            exact htop hlist
          simpa [Issue.LooksBelow, hkind] using hne
        simp only [htop, if_false, hbad, Option.getD_none]
        rfl
  | type =>
      have hbad := badPermission?_eq_none hstring fun list _ => by simp [Issue.LooksBelow, hkind]
      simp only [hbad, Option.getD_none]
      rfl
  | other keyword =>
      have hbad := badPermission?_eq_none hstring fun list _ => by simp [Issue.LooksBelow, hkind]
      simp only [hbad, Option.getD_none]
      rfl

/-- What the kind of an issue gives is never kept for an item of a list. -/
theorem baseVerdict_not_kept :
    keptCodes.contains (classifier.baseVerdict issue).code = false := by
  have hreserved : ∀ privileged listed ordinary, keptCodes.contains ordinary = false →
      keptCodes.contains (reservedCode privileged listed ordinary) = false := by
    intro privileged listed ordinary hordinary
    cases privileged <;> cases listed <;> first | rfl | exact hordinary
  unfold baseVerdict
  cases issue.kind with
  | deprecated =>
      cases hreplacement : Catalog.replacement? issue.pointer with
      | none => rfl
      | some code =>
          obtain rfl := Catalog.eq_of_replacement? hreplacement
          rfl
  | privileged listed => exact hreserved _ _ _ rfl
  | privilegedPermissions listed =>
      dsimp only
      split_ifs
      · exact hreserved _ _ _ rfl
      · rfl
  | minManifestVersion => dsimp only; split_ifs <;> rfl
  | maxManifestVersion => dsimp only; split_ifs <;> rfl
  | _ => rfl

theorem refine_of_isItem {first : Verdict} (hkept : keptCodes.contains first.code = false)
    {list : NameList} {position : Nat} (h : issue.IsItem list.key position) :
    refine issue first = ⟨list.itemCode, [("field", list.key), ("value", issue.shownValue),
      ("index", toString position)], none⟩ := by
  have hcode := Issue.elementCode?_eq_some_iff.mpr ⟨list, rfl, rfl⟩
  rw [refine, if_neg (by rw [hkept]; simp), Issue.element?_eq_some_iff.mpr h]
  simp only [hcode, Verdict.plain]

theorem refine_of_not_isItem {first : Verdict}
    (h : ∀ (list : NameList) position, ¬issue.IsItem list.key position) :
    refine issue first = first := by
  rw [refine]
  split
  · rfl
  · split
    · next field position helement =>
        split
        · next code hcode =>
            obtain ⟨list, rfl, -⟩ := Issue.elementCode?_eq_some_iff.mp hcode
            exact absurd (Issue.element?_eq_some_iff.mp helement) (h list position)
        · rfl
    · rfl

/-- Every row of the table says what classification does. -/
theorem verdict_of_precedence {row : Verdict} (h : Precedence classifier issue row) :
    classifier.verdict issue = row := by
  rw [verdict]
  cases h with
  | gatedItem h => rw [firstVerdict_of_gatedItem h]; rfl
  | @nonString list hgate h =>
      rw [firstVerdict_of_nonStringBelow h]
      cases list <;> rfl
  | item hgate hstring h =>
      rw [firstVerdict_of_base hgate hstring]
      exact refine_of_isItem baseVerdict_not_kept h
  | base hgate hstring hitem =>
      rw [firstVerdict_of_base hgate hstring]
      exact refine_of_not_isItem hitem

theorem exists_precedence (classifier : Classifier) (issue : Issue) :
    ∃ row, Precedence classifier issue row := by
  by_cases hgate : ∃ list position, issue.GatedItem list position
  · obtain ⟨list, position, h⟩ := hgate
    exact ⟨_, .gatedItem h⟩
  have hgate' : ∀ list position, ¬issue.GatedItem list position :=
    fun list position h => hgate ⟨list, position, h⟩
  by_cases hstring : ∃ list, issue.NonStringBelow list
  · obtain ⟨list, h⟩ := hstring
    exact ⟨_, .nonString hgate' h⟩
  have hstring' : ∀ list, ¬issue.NonStringBelow list := fun list h => hstring ⟨list, h⟩
  by_cases hitem : ∃ (list : NameList) (position : Nat), issue.IsItem list.key position
  · obtain ⟨list, position, h⟩ := hitem
    exact ⟨_, .item hgate' hstring' h⟩
  · exact ⟨_, .base hgate' hstring' fun list position h => hitem ⟨list, position, h⟩⟩

theorem classify_eq_outcome (classifier : Classifier) (issue : Issue) :
    classifier.classify issue = classifier.outcome (classifier.verdict issue) := by
  have hrender : ∀ row : Verdict, row.render classifier.catalog =
      { code := row.code
        severity := (classifier.catalog.template row.code).severity
        message := fill row.values (classifier.catalog.template row.code).message
        description :=
          ((classifier.catalog.template row.code).description.map (fill row.values)).or row.standby
        file := none } := by
    intro row
    rw [Verdict.render]
    cases hstandby : row.standby <;>
      cases hdescription : (classifier.catalog.template row.code).description <;>
      simp [Catalog.render, Diagnostic.withDescription, hdescription]
  rw [classify, outcome]
  simp only [suppresses, hrender, Bool.and_eq_true, Bool.or_eq_true, decide_eq_true_eq]

theorem code_of_precedence {found : Diagnostic} {row : Verdict}
    (hrow : Precedence classifier issue row) (hfound : classifier.classify issue = some found) :
    row.code = found.code := by
  rw [classify_eq_outcome, verdict_of_precedence hrow, outcome] at hfound
  split at hfound
  · cases hfound
  · exact Option.some.inj hfound ▸ rfl

/-- Classification follows the table of precedence: an issue becomes exactly what the first row that
applies to it becomes. -/
theorem classify_eq_iff_precedence (classifier : Classifier) (issue : Issue)
    (found : Option Diagnostic) :
    classifier.classify issue = found ↔
      ∃ row, Precedence classifier issue row ∧ classifier.outcome row = found := by
  rw [classify_eq_outcome]
  constructor
  · intro h
    obtain ⟨row, hrow⟩ := exists_precedence classifier issue
    refine ⟨row, hrow, ?_⟩
    rw [← verdict_of_precedence hrow, h]
  · rintro ⟨row, hrow, h⟩
    rw [verdict_of_precedence hrow, h]

/-- An optional permission that is a number is of the second row, and so not of the one for items of
lists. -/
theorem classify_eq_iff_precedence_number :
    let classifier : Classifier := ⟨.standard, false, 3, "mozillaAddons"⟩
    let issue : Issue := ⟨.type, [.key "optional_permissions", .index 1], some (.ofNat 7),
      "7 is not a text"⟩
    let row : Verdict := ⟨.manifestBadOptionalPermission, [("detail", "7 is not a text")], none⟩
    issue.NonStringBelow .optionalPermissions ∧ issue.IsItem "optional_permissions" 1 ∧
      Precedence classifier issue row ∧
      classifier.classify issue = some (Catalog.standard.render .manifestBadOptionalPermission
        [("detail", "7 is not a text")]) := by
  intro classifier issue row
  have hbelow : issue.NonStringBelow .optionalPermissions :=
    ⟨⟨.ofNat 7, rfl, rfl⟩, ⟨[.index 1], rfl⟩, trivial⟩
  have hgate : ∀ list position, ¬issue.GatedItem list position := by
    rintro list position ⟨hkind | hkind, -⟩ <;> cases hkind
  have hrow : Precedence classifier issue row := .nonString hgate hbelow
  exact ⟨hbelow, rfl, hrow, (classify_eq_iff_precedence classifier issue _).mpr ⟨row, hrow, rfl⟩⟩

end Classifier
end ExtensionLint
