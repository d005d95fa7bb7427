import ExtensionLint.Annotations
import ExtensionLint.Proofs.IssuePaths
import ExtensionLint.Proofs.References

/-!
The paths of issues from annotations. An annotation names a place by a pointer; the issue carries the
value found there, and the path that the pointer is read as. An item of a permission list is found by
its position, and there both agree. Elsewhere they agree for every pointer whose numbers are written as
the standard writes them; with any other number the value is that of a member, and the issue leads to
the item or the member of another name.
-/

namespace ExtensionLint

namespace Json.Pointer

theorem walk?_name {index? : List Char → Option Nat} {name : String}
    (hname : index? name.toList = none) (document : Json) (rest : List (List Char)) :
    walk? index? document (name.toList :: rest) =
      (document.get? name).bind fun next => walk? index? next rest := by
  rw [walk?, step?_of_not_index hname, String.ofList_toList]

section Items

variable {document item : Json} {list : String} {items : List Json} {position : Nat}

theorem itemPointer_eq (hlist : list ∈ Annotations.gatedLists) (position : Nat) :
    "/" ++ list ++ "/" ++ toString position = Path.pointer [.key list, .index position] := by
  have hescape : ∀ list ∈ Annotations.gatedLists, escape list.toList = list.toList := by decide
  apply String.toList_injective
  simp [Path.pointer, Path.write, Path.Step.write, hescape list hlist, Nat.repr]

theorem ofPointer_itemPointer (hlist : list ∈ Annotations.gatedLists)
    (hposition : position ≤ Text.word64Max) :
    Path.ofPointer ("/" ++ list ++ "/" ++ toString position) = [.key list, .index position] := by
  have hname : ∀ list ∈ Annotations.gatedLists, (Path.Step.key list).IsLegible := by decide
  rw [itemPointer_eq hlist, Path.ofPointer_pointer_iff]
  simpa using ⟨hname list hlist, hposition⟩

theorem tokens?_itemPointer (hlist : list ∈ Annotations.gatedLists) (position : Nat) :
    tokens? ("/" ++ list ++ "/" ++ toString position) =
      some [list.toList, Nat.toDigits 10 position] := by
  have hdigits : unescape (Nat.toDigits 10 position) = Nat.toDigits 10 position :=
    unescape_eq_self (tilde_not_mem_of_digits fun _ => Text.isDigit_of_mem_toDigits)
  rw [itemPointer_eq hlist, tokens?_pointer]
  simp [Path.Step.write, unescape_escape, hdigits]

theorem plain_itemPointer (hlist : list ∈ Annotations.gatedLists)
    (hposition : position ≤ Text.word64Max) :
    Plain ("/" ++ list ++ "/" ++ toString position) := by
  have htokens := tokens?_itemPointer hlist position
  rw [← tokens?_pointer_ofPointer htokens, ofPointer_itemPointer hlist hposition,
    ← itemPointer_eq hlist, htokens]

theorem pointer?_itemPointer (hlist : list ∈ Annotations.gatedLists)
    (hitems : document.get? list = some (.array items)) (hitem : items[position]? = some item)
    (hposition : position ≤ Text.word64Max) :
    document.pointer? ("/" ++ list ++ "/" ++ toString position) = some item := by
  have hname : ∀ list ∈ Annotations.gatedLists, canonicalIndex? list.toList = none := by decide
  have hindex : canonicalIndex? (Nat.toDigits 10 position) = some position :=
    canonicalIndex?_eq_some_iff.mpr ⟨rfl, hposition⟩
  rw [pointer?, tokens?_itemPointer hlist, Option.bind_some, walk?_name (hname list hlist), hitems]
  simp [walk?, step?, hindex, hitem]

end Items

end Json.Pointer

namespace Annotations

open Json (Path)
open Json.Pointer (Plain)

/-- Holds of documents in which every item of a permission list has an index of 64 bits, as it has in
every list that fits in memory. -/
def IndexableLists (document : Json) : Prop :=
  ∀ list ∈ gatedLists, (((document.get? list).bind Json.items?).getD []).length ≤ 2 ^ 64

instance (document : Json) : Decidable (IndexableLists document) := by
  unfold IndexableLists
  infer_instance

/-- The pointers in annotations. -/
def pointers (annotations : Annotations) : List String :=
  annotations.deprecated.map DeprecatedProperty.pointer ++
    annotations.propertyGates.map PropertyGate.pointer ++ annotations.privilegedProperties

/-- An issue of a version range carries the value and the path of the pointer that it is about. -/
theorem rangeIssue?_place {range : VersionRange} {version : Nat} {pointer : String} {value : Json}
    {issue : Issue} (h : rangeIssue? range version pointer value = some issue) :
    issue.path = Path.ofPointer pointer ∧ issue.value = some value := by
  rw [rangeIssue?] at h
  split at h
  · exact Option.some.inj h ▸ ⟨rfl, rfl⟩
  · exact Option.some.inj h ▸ ⟨rfl, rfl⟩
  · cases h

/-- An item of a permission list is found by its position, which is an index of 64 bits. -/
theorem exists_items_of_mem_zipIdx {document item : Json} {list : String} {position : Nat}
    (hlists : IndexableLists document) (hlist : list ∈ gatedLists)
    (hentry : (item, position) ∈
      (((document.get? list).bind Json.items?).getD []).zipIdx) :
    ∃ items, document.get? list = some (.array items) ∧ items[position]? = some item ∧
      position ≤ Text.word64Max := by
  rw [List.mem_zipIdx_iff_getElem?] at hentry
  have hlt := (List.getElem?_eq_some_iff.mp hentry).1
  obtain ⟨items, hitems, -⟩ := Json.mem_getD_items.mp (List.mem_of_getElem? hentry)
  rw [hitems] at hentry
  exact ⟨items, hitems, hentry,
    Nat.le_sub_one_of_lt (Nat.lt_of_lt_of_le hlt (hlists list hlist))⟩

variable {annotations : Annotations} {privileged : Bool} {properties : Json.Members}

/-- An issue that carries a value has it from a pointer, and has its path from the same pointer. -/
theorem exists_pointer_of_mem_issues (hlists : IndexableLists (.object properties)) {issue : Issue}
    (hissue : issue ∈ annotations.issues privileged (.object properties)) {value : Json}
    (hvalue : issue.value = some value) :
    ∃ pointer, (pointer ∈ annotations.pointers ∨ Plain pointer) ∧
      issue.path = Path.ofPointer pointer ∧
      (Json.object properties).pointer? pointer = some value := by
  simp only [issues, List.mem_append, List.mem_filterMap, List.mem_flatMap] at hissue
  rcases hissue with (((⟨property, hproperty, hdeprecated⟩ | ⟨gate, hmem, hgate⟩) |
    ⟨list, hlist, hitem⟩) | hreserved) | hpermissions
  · obtain ⟨found, hfound, rfl⟩ := Option.map_eq_some_iff.mp hdeprecated
    obtain rfl := Option.some.inj hvalue
    refine ⟨property.pointer, .inl ?_, rfl, hfound⟩
    simp only [pointers, List.mem_append]
    exact .inl (.inl (List.mem_map_of_mem hproperty))
  · obtain ⟨found, hfound, hrange⟩ := Option.bind_eq_some_iff.mp hgate
    obtain ⟨hpath, hcarried⟩ := rangeIssue?_place hrange
    obtain rfl := Option.some.inj (hcarried.symm.trans hvalue)
    refine ⟨gate.pointer, .inl ?_, hpath, hfound⟩
    simp only [pointers, List.mem_append]
    exact .inl (.inr (List.mem_map_of_mem hmem))
  · obtain ⟨⟨item, position⟩, hentry, hgates⟩ := List.mem_flatMap.mp hitem
    obtain ⟨items, hitems, hat, hposition⟩ := exists_items_of_mem_zipIdx hlists hlist hentry
    cases item with
    | string name =>
        obtain ⟨gate, -, hrange⟩ := List.mem_filterMap.mp hgates
        obtain ⟨hpath, hcarried⟩ := rangeIssue?_place hrange
        obtain rfl := Option.some.inj (hcarried.symm.trans hvalue)
        exact ⟨_, .inr (Json.Pointer.plain_itemPointer hlist hposition), hpath,
          Json.Pointer.pointer?_itemPointer hlist hitems hat hposition⟩
    | _ => cases hgates
  · cases privileged with
    | true => cases hreserved
    | false =>
        obtain ⟨pointer, hpointer, hproperty⟩ := List.mem_filterMap.mp hreserved
        obtain ⟨found, hfound, rfl⟩ := Option.map_eq_some_iff.mp hproperty
        obtain rfl := Option.some.inj hvalue
        refine ⟨pointer, .inl ?_, rfl, hfound⟩
        simp only [pointers, List.mem_append]
        exact .inr hpointer
  · rw [permissionsIssue?] at hpermissions
    split at hpermissions
    · obtain rfl := List.mem_singleton.mp hpermissions
      have htokens : Json.Pointer.tokens? "/permissions" = some ["permissions".toList] := by decide
      refine ⟨"/permissions", .inr (by decide), rfl, ?_⟩
      rw [Json.pointer?, htokens, Option.bind_some, Json.Pointer.walk?_name (by decide)]
      simpa [Json.Pointer.walk?, Issue.atPointer] using hvalue
    · cases hpermissions

/-- Every issue of annotations that carries a value has it from a pointer, one that the annotations
name or one to the permissions. If that pointer is plain, the issue leads to its value. If it is not,
then in some document the pointer leads to this value and the path of the issue leads nowhere. -/
theorem issue_leads_to_value (hlists : IndexableLists (.object properties)) {issue : Issue}
    (hissue : issue ∈ annotations.issues privileged (.object properties)) {value : Json}
    (hvalue : issue.value = some value) :
    ∃ pointer, (pointer ∈ annotations.pointers ∨ Plain pointer) ∧
      issue.path = Path.ofPointer pointer ∧
      (Json.object properties).pointer? pointer = some value ∧
      (Plain pointer → (Json.object properties).pointer? issue.pointer = some value) ∧
      (¬Plain pointer → ∃ other : Json.Members,
        (Json.object other).pointer? pointer = some value ∧
        (Json.object other).pointer? issue.pointer = none) := by
  obtain ⟨pointer, hsource, hpath, hleads⟩ := exists_pointer_of_mem_issues hlists hissue hvalue
  have hpointer : issue.pointer = (Path.ofPointer pointer).pointer := by
    rw [Issue.pointer, hpath]
  refine ⟨pointer, hsource, hpath, hleads, ?_, ?_⟩
  · intro hplain
    rw [hpointer]
    exact Json.pointer?_of_plain hplain hleads
  · intro hplain
    rw [hpointer]
    exact Json.exists_pointer?_eq_none hplain (by rw [hleads]; rfl) value

/-- The issue of a deprecated icon leads to the icon. -/
theorem issue_leads_to_value_icon :
    let annotations := { standard with deprecated := [⟨"/icons/16", "use 32"⟩] }
    let properties : Json.Members := [("icons", .object [("16", .string "a.png")])]
    let issue := Issue.atPointer .deprecated "/icons/16" (some (.string "a.png")) "use 32"
    IndexableLists (.object properties) ∧
      issue ∈ annotations.issues false (.object properties) ∧
      issue.value = some (.string "a.png") ∧
      ∃ pointer, (pointer ∈ annotations.pointers ∨ Plain pointer) ∧
        issue.path = Path.ofPointer pointer ∧
        (Json.object properties).pointer? pointer = some (.string "a.png") ∧
        (Plain pointer →
          (Json.object properties).pointer? issue.pointer = some (.string "a.png")) ∧
        (¬Plain pointer → ∃ other : Json.Members,
          (Json.object other).pointer? pointer = some (.string "a.png") ∧
          (Json.object other).pointer? issue.pointer = none) := by
  intro annotations properties issue
  have hlists : IndexableLists (.object properties) := by decide
  have hissue : issue ∈ annotations.issues false (.object properties) := by
    refine List.mem_append_left _ (List.mem_append_left _ (List.mem_append_left _
      (List.mem_append_left _ ?_)))
    exact List.mem_cons_self
  exact ⟨hlists, hissue, rfl, issue_leads_to_value hlists hissue rfl⟩

/-- The issue of a deprecated icon that is declared for the size `016` leads to the size `16`, where
there is nothing. -/
theorem issue_leads_elsewhere :
    let annotations := { standard with deprecated := [⟨"/icons/016", "use 16"⟩] }
    let document := Json.object [("icons", .object [("016", .string "a.png")]),
      ("manifest_version", .ofNat 2), ("name", .string "Demo"), ("version", .string "1.0")]
    ∃ issue ∈ annotations.issues false document, issue.value = some (.string "a.png") ∧
      issue.pointer = "/icons/16" ∧ document.pointer? issue.pointer = none := by
  intro annotations document
  exact ⟨_, List.mem_cons_self, rfl, by decide +kernel, by rfl⟩

end Annotations
end ExtensionLint
