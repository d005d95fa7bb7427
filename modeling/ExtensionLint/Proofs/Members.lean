import ExtensionLint.Json.Basic
import Mathlib.Data.List.Nodup
import Mathlib.Data.String.Basic

/-!
Laws of members. A name that has one member finds it, wherever it stands. Setting a member leaves what
the other names find as it is; what is set last is found, and takes the place of what was set before,
and it does not matter which of two names is set first, also where members do not ascend. An object
carries the order of its members, so it is given by what is found under each name; it does not matter
whether one name is erased before or after others are set, and setting the members of an object makes
it again. Where several members are set, each if there is a value for it, setting all of them once
more changes nothing.
-/

namespace ExtensionLint

namespace Ordered

section Lookup

variable {β : Type} {entries : List (String × β)}

theorem lookup_eq_some_iff_mem {key : String} {value : β} (hnodup : (entries.map Prod.fst).Nodup) :
    entries.lookup key = some value ↔ (key, value) ∈ entries := by
  induction entries with
  | nil => simp
  | cons entry entries ih =>
      obtain ⟨other, old⟩ := entry
      rw [List.map_cons, List.nodup_cons] at hnodup
      rw [List.lookup_cons, List.mem_cons, Prod.mk.injEq]
      by_cases hkey : key = other
      · subst hkey
        have hnot : (key, value) ∉ entries := fun h => hnodup.1 (List.mem_map.mpr ⟨_, h, rfl⟩)
        simp [hnot, eq_comm]
      · rw [beq_eq_false_iff_ne.mpr hkey, ih hnodup.2]
        simp [hkey]

theorem lookup_of_perm {others : List (String × β)} (hnodup : (entries.map Prod.fst).Nodup)
    (hperm : entries.Perm others) (key : String) : others.lookup key = entries.lookup key := by
  have hothers : (others.map Prod.fst).Nodup := (hperm.map Prod.fst).nodup_iff.mp hnodup
  ext value
  rw [lookup_eq_some_iff_mem hnodup, lookup_eq_some_iff_mem hothers, hperm.mem_iff]

theorem mem_keys_iff {key : String} :
    key ∈ entries.map Prod.fst ↔ ∃ value, entries.lookup key = some value := by
  rw [← Option.isSome_iff_exists, List.lookup_isSome_iff, List.mem_map]
  constructor
  · rintro ⟨entry, hentry, rfl⟩
    exact ⟨entry, hentry, beq_self_eq_true _⟩
  · rintro ⟨entry, hentry, hkey⟩
    exact ⟨entry, hentry, (eq_of_beq hkey).symm⟩

end Lookup

section Update

variable {β : Type} {standard : β} {change : β → β} {entries : List (String × β)}

theorem lookup_update_of_ne {key other : String} (hne : other ≠ key) :
    (update key standard change entries).lookup other = entries.lookup other := by
  have hbeq : (other == key) = false := beq_eq_false_iff_ne.mpr hne
  fun_induction update key standard change entries with
  | case1 => rw [List.lookup_cons, hbeq]
  | case2 first value rest hless => rw [List.lookup_cons, hbeq]
  | case3 value rest hless => rw [List.lookup_cons, List.lookup_cons, hbeq]
  | case4 first value rest hless hfirst ih => rw [List.lookup_cons, List.lookup_cons, ih]

/-- Of ascending entries the one of a key is changed, or the standard value where there is none. -/
theorem lookup_update_self {key : String} (hsorted : entries.Pairwise fun a b => a.1 < b.1) :
    (update key standard change entries).lookup key =
      some (change ((entries.lookup key).getD standard)) := by
  fun_induction update key standard change entries with
  | case1 => rw [List.lookup_cons_self, List.lookup_nil, Option.getD_none]
  | case2 other value rest hless =>
      have hnone : ((other, value) :: rest).lookup key = none := by
        refine List.lookup_eq_none_iff.mpr fun entry hentry => bne_iff_ne.mpr ?_
        rcases List.mem_cons.mp hentry with rfl | hrest
        · exact hless.ne
        · exact (String.lt_trans hless (List.rel_of_pairwise_cons hsorted hrest)).ne
      rw [List.lookup_cons_self, hnone, Option.getD_none]
  | case3 value rest hless =>
      rw [List.lookup_cons_self, List.lookup_cons_self, Option.getD_some]
  | case4 other value rest hless hother ih =>
      rw [List.lookup_cons, List.lookup_cons, beq_eq_false_iff_ne.mpr hother, ih hsorted.of_cons]

end Update

section Put

variable {β : Type} {entries : List (String × β)} {key : String} {value : β}

theorem lookup_put_self : (put key value entries).lookup key = some value := by
  rw [put]
  fun_induction update key value (fun _ => value) entries with
  | case1 => simp
  | case2 other old rest hless => simp
  | case3 old rest hless => simp
  | case4 other old rest hless hother ih =>
      rw [List.lookup_cons, beq_eq_false_iff_ne.mpr hother, ih]

theorem put_put {first : β} : put key value (put key first entries) = put key value entries := by
  simp only [put]
  fun_induction update key first (fun _ => first) entries with
  | case1 => simp [update]
  | case2 other old rest hless => simp [update, hless]
  | case3 old rest hless => simp [update]
  | case4 other old rest hless hother ih => simp [update, hless, hother, ih]

theorem mem_of_mem_put {entry : String × β} (h : entry ∈ put key value entries) :
    entry = (key, value) ∨ entry ∈ entries := by
  rw [put] at h
  fun_induction update key value (fun _ => value) entries with
  | case1 => exact .inl (List.mem_singleton.mp h)
  | case2 other old rest hless => exact List.mem_cons.mp h
  | case3 old rest hless => exact (List.mem_cons.mp h).imp_right (List.mem_cons_of_mem _)
  | case4 other old rest hless hother ih =>
      rcases List.mem_cons.mp h with rfl | hrest
      · exact .inr (List.mem_cons_self ..)
      · exact (ih hrest).imp_right (List.mem_cons_of_mem _)

section Cons

variable {name : String} {old : β}

theorem put_cons_of_lt (hless : key < name) :
    put key value ((name, old) :: entries) = (key, value) :: (name, old) :: entries :=
  if_pos hless

theorem put_cons_self : put key value ((key, old) :: entries) = (key, value) :: entries := by
  rw [put, update, if_neg (lt_irrefl key), if_pos rfl]

theorem put_cons_of_gt (hgreater : name < key) :
    put key value ((name, old) :: entries) = (name, old) :: put key value entries := by
  rw [put, update, if_neg (not_lt.mpr hgreater.le), if_neg hgreater.ne', put]

end Cons

theorem put_put_of_lt {other : String} {otherValue : β} (hless : key < other) :
    put key value (put other otherValue entries) = put other otherValue (put key value entries) := by
  induction entries with
  | nil =>
      show put key value [(other, otherValue)] = put other otherValue [(key, value)]
      rw [put_cons_of_lt hless, put_cons_of_gt hless]
      rfl
  | cons entry entries ih =>
      obtain ⟨name, old⟩ := entry
      rcases lt_trichotomy key name with hname | rfl | hname
      · rw [put_cons_of_lt hname, put_cons_of_gt hless]
        rcases lt_trichotomy other name with hother | rfl | hother
        · rw [put_cons_of_lt hother, put_cons_of_lt hless]
        · rw [put_cons_self, put_cons_of_lt hless]
        · rw [put_cons_of_gt hother, put_cons_of_lt hname]
      · rw [put_cons_self, put_cons_of_gt hless, put_cons_of_gt hless, put_cons_self]
      · rw [put_cons_of_gt hname, put_cons_of_gt (hname.trans hless),
          put_cons_of_gt (hname.trans hless), put_cons_of_gt hname, ih]

/-- It does not matter which of two keys is put first, also where the entries do not ascend. -/
theorem put_comm {other : String} {otherValue : β} (hne : key ≠ other) :
    put key value (put other otherValue entries) = put other otherValue (put key value entries) := by
  rcases lt_or_gt_of_ne hne with hless | hless
  · exact put_put_of_lt hless
  · exact (put_put_of_lt hless).symm

end Put

end Ordered

namespace Json.Members

variable {members : Members} {name key : String} {value : Json}

theorem get?_insert_of_ne (hne : key ≠ name) :
    (members.insert name value).get? key = members.get? key :=
  Ordered.lookup_update_of_ne hne

@[simp] theorem get?_insert_self : (members.insert name value).get? name = some value :=
  Ordered.lookup_put_self

@[simp] theorem insert_insert {first : Json} :
    (members.insert name first).insert name value = members.insert name value :=
  Ordered.put_put

theorem insert_comm {other : Json} (hne : key ≠ name) :
    (members.insert name value).insert key other = (members.insert key other).insert name value :=
  Ordered.put_comm hne

theorem mem_of_get? (h : members.get? name = some value) : (name, value) ∈ members := by
  obtain ⟨before, after, rfl, -⟩ := List.lookup_eq_some_iff.mp h
  exact List.mem_append_right _ (List.mem_cons_self ..)

theorem mem_of_mem_insert {member : String × Json} (h : member ∈ members.insert name value) :
    member = (name, value) ∨ member ∈ members :=
  Ordered.mem_of_mem_put h

/-- The members of other names. -/
def erase (name : String) (members : Members) : Members :=
  members.filter fun member => member.1 != name

theorem erase_cons_self : Members.erase name ((name, value) :: members) = members.erase name := by
  simp [erase]

theorem erase_cons_of_ne (hne : key ≠ name) :
    Members.erase name ((key, value) :: members) = (key, value) :: members.erase name := by
  simp [erase, hne]

theorem get?_erase_of_ne (hne : key ≠ name) : (members.erase name).get? key = members.get? key := by
  induction members with
  | nil => rfl
  | cons member members ih =>
      obtain ⟨other, value⟩ := member
      by_cases hother : other = name
      · rw [hother, erase_cons_self, ih, get?, get?, List.lookup_cons, beq_eq_false_iff_ne.mpr hne]
      · rw [erase_cons_of_ne hother, get?, get?, List.lookup_cons, List.lookup_cons, ← get?, ← get?,
          ih]

theorem get?_erase_self : (members.erase name).get? name = none := by
  refine List.lookup_eq_none_iff.mpr fun member hmember => bne_iff_ne.mpr ?_
  exact Ne.symm (bne_iff_ne.mp (List.mem_filter.mp hmember).2)

theorem erase_insert_self : (members.insert name value).erase name = members.erase name := by
  rw [insert, Ordered.put]
  fun_induction Ordered.update name value (fun _ => value) members with
  | case1 => simp [erase]
  | case2 other old rest hless => rw [erase_cons_self]
  | case3 old rest hless => rw [erase_cons_self, erase_cons_self]
  | case4 other old rest hless hother ih =>
      rw [erase_cons_of_ne (Ne.symm hother), erase_cons_of_ne (Ne.symm hother), ih]

theorem Ascending.nodup (h : members.Ascending) : (members.map Prod.fst).Nodup :=
  List.pairwise_map.mpr (h.imp ne_of_lt)

theorem Ascending.erase (h : members.Ascending) : (members.erase name).Ascending := h.filter _

section Assign

/-- Sets a member, if there is a value for it. -/
def assign (name : String) (value? : Option Json) (members : Members) : Members :=
  match value? with
  | some value => members.insert name value
  | none => members

/-- Sets each of the listed members for which there is a value. -/
def assignAll (assignments : List (String × Option Json)) (members : Members) : Members :=
  assignments.foldl (fun made (name, value?) => assign name value? made) members

variable {value? other? : Option Json} {assignments : List (String × Option Json)}

theorem get?_assign_self :
    (members.assign name value?).get? name = value?.or (members.get? name) := by
  cases value? with
  | none => rfl
  | some value => exact get?_insert_self

theorem get?_assign_of_ne (hne : key ≠ name) :
    (members.assign name value?).get? key = members.get? key := by
  cases value? with
  | none => rfl
  | some value => exact get?_insert_of_ne hne

theorem assign_assign :
    (members.assign name value?).assign name value? = members.assign name value? := by
  cases value? with
  | none => rfl
  | some value => exact insert_insert

theorem assign_comm (hne : key ≠ name) :
    (members.assign name value?).assign key other? =
      (members.assign key other?).assign name value? := by
  cases value? with
  | none => rfl
  | some value =>
      cases other? with
      | none => rfl
      | some other => exact insert_comm hne

theorem Ascending.assign (h : members.Ascending) : (members.assign name value?).Ascending := by
  cases value? with
  | none => exact h
  | some value => exact h.insert

theorem isSome_get?_assign (h : (members.get? key).isSome = true) :
    ((members.assign name value?).get? key).isSome = true := by
  by_cases hname : key = name
  · rw [hname, get?_assign_self, Option.isSome_or, ← hname, h, Bool.or_true]
  · rwa [get?_assign_of_ne hname]

theorem assignAll_cons :
    members.assignAll ((name, value?) :: assignments) =
      (members.assign name value?).assignAll assignments := rfl

theorem get?_assignAll_of_not_mem (hkey : key ∉ assignments.map Prod.fst) :
    (members.assignAll assignments).get? key = members.get? key := by
  induction assignments generalizing members with
  | nil => rfl
  | cons assignment assignments ih =>
      obtain ⟨hne, hrest⟩ := not_or.mp (mt List.mem_cons.mpr hkey)
      rw [assignAll_cons, ih hrest, get?_assign_of_ne hne]

theorem get?_assignAll_of_mem {assignment : String × Option Json} (hmem : assignment ∈ assignments)
    (hnodup : (assignments.map Prod.fst).Nodup) :
    (members.assignAll assignments).get? assignment.1 =
      assignment.2.or (members.get? assignment.1) := by
  induction assignments generalizing members with
  | nil => cases hmem
  | cons first assignments ih =>
      obtain ⟨hfirst, hrest⟩ := List.nodup_cons.mp hnodup
      rw [assignAll_cons]
      rcases List.mem_cons.mp hmem with rfl | hlater
      · rw [get?_assignAll_of_not_mem hfirst, get?_assign_self]
      · have hne : assignment.1 ≠ first.1 := by
          intro heq
          exact hfirst (heq ▸ List.mem_map_of_mem hlater)
        rw [ih hlater hrest, get?_assign_of_ne hne]

theorem isSome_get?_assignAll (h : (members.get? key).isSome = true) :
    ((members.assignAll assignments).get? key).isSome = true := by
  induction assignments generalizing members with
  | nil => exact h
  | cons assignment assignments ih => exact ih (isSome_get?_assign h)

theorem assignAll_assign_comm (hname : name ∉ assignments.map Prod.fst) :
    (members.assign name value?).assignAll assignments =
      (members.assignAll assignments).assign name value? := by
  induction assignments generalizing members with
  | nil => rfl
  | cons assignment assignments ih =>
      obtain ⟨hne, hrest⟩ := not_or.mp (mt List.mem_cons.mpr hname)
      rw [assignAll_cons, assignAll_cons, assign_comm (Ne.symm hne), ih hrest]

/-- Members of different names are all set at once: setting them again changes nothing. -/
theorem assignAll_assignAll (hnodup : (assignments.map Prod.fst).Nodup) :
    (members.assignAll assignments).assignAll assignments = members.assignAll assignments := by
  induction assignments generalizing members with
  | nil => rfl
  | cons assignment assignments ih =>
      obtain ⟨hname, hrest⟩ := List.nodup_cons.mp hnodup
      rw [assignAll_cons, assignAll_cons, ← assignAll_assign_comm hname, assign_assign, ih hrest]

end Assign

end Json.Members

namespace Json.Object

variable {object other : Object} {name key : String} {value : Json}

theorem nodup (object : Object) : (object.members.map Prod.fst).Nodup := object.ascending.nodup

theorem mem_iff_get? {member : String × Json} :
    member ∈ object.members ↔ object.members.get? member.1 = some member.2 :=
  (Ordered.lookup_eq_some_iff_mem object.nodup).symm

/-- An object is given by what is found under each name. -/
theorem ext_get? (h : ∀ key, object.members.get? key = other.members.get? key) : object = other := by
  have hperm : object.members.Perm other.members := by
    have hnodup := List.Nodup.of_map _ object.nodup
    refine (List.perm_ext_iff_of_nodup hnodup (List.Nodup.of_map _ other.nodup)).mpr fun member => ?_
    rw [mem_iff_get?, mem_iff_get?, h]
  have hmembers : object.members = other.members := by
    refine hperm.eq_of_pairwise ?_ object.ascending other.ascending
    exact fun first second _ _ hless hgreater => absurd hgreater hless.asymm
  exact Object.ext hmembers

section InsertAll

variable {listed : List (String × Json)}

theorem insertAll_cons :
    object.insertAll ((name, value) :: listed) = (object.insert name value).insertAll listed := rfl

theorem mem_of_mem_insertAll {member : String × Json}
    (h : member ∈ (object.insertAll listed).members) : member ∈ listed ∨ member ∈ object.members := by
  induction listed generalizing object with
  | nil => exact .inr h
  | cons first listed ih =>
      rcases ih h with hlater | hmade
      · exact .inl (List.mem_cons_of_mem _ hlater)
      · rcases Members.mem_of_mem_insert hmade with rfl | hold
        · exact .inl (List.mem_cons_self ..)
        · exact .inr hold

theorem mem_of_mem_ofList {member : String × Json} (h : member ∈ (ofList listed).members) :
    member ∈ listed :=
  (mem_of_mem_insertAll h).resolve_right List.not_mem_nil

theorem get?_insertAll (hnodup : (listed.map Prod.fst).Nodup) :
    (object.insertAll listed).members.get? key = (listed.lookup key).or (object.members.get? key) := by
  induction listed generalizing object with
  | nil => rfl
  | cons first listed ih =>
      obtain ⟨other, value⟩ := first
      obtain ⟨hfirst, hrest⟩ := List.nodup_cons.mp hnodup
      rw [insertAll_cons, ih hrest, List.lookup_cons, insert]
      by_cases hkey : key = other
      · have hnone : listed.lookup other = none := by
          refine List.lookup_eq_none_iff.mpr fun member hmember => bne_iff_ne.mpr ?_
          exact fun hsame => hfirst (List.mem_map.mpr ⟨member, hmember, hsame.symm⟩)
        rw [hkey, hnone, Members.get?_insert_self, beq_self_eq_true]
        rfl
      · rw [Members.get?_insert_of_ne hkey, beq_eq_false_iff_ne.mpr hkey]

theorem get?_ofList (hnodup : (listed.map Prod.fst).Nodup) :
    (ofList listed).members.get? key = listed.lookup key := by
  rw [ofList, get?_insertAll hnodup, empty, Members.get?, List.lookup_nil, Option.or_none]

/-- An object is made again by setting its members. -/
theorem ofList_members (object : Object) : ofList object.members = object :=
  ext_get? fun _ => get?_ofList object.nodup

end InsertAll

section Erase

variable {value? : Option Json} {assignments : List (String × Option Json)}

def erase (name : String) (object : Object) : Object :=
  ⟨object.members.erase name, object.ascending.erase⟩

def assign (name : String) (value? : Option Json) (object : Object) : Object :=
  ⟨object.members.assign name value?, object.ascending.assign⟩

theorem erase_insert_self : (object.insert name value).erase name = object.erase name :=
  Object.ext Members.erase_insert_self

theorem erase_assign_of_ne (hne : key ≠ name) :
    (object.assign key value?).erase name = (object.erase name).assign key value? := by
  refine ext_get? fun other => ?_
  simp only [erase, assign]
  by_cases hname : other = name
  · rw [hname, Members.get?_erase_self, Members.get?_assign_of_ne hne.symm, Members.get?_erase_self]
  · rw [Members.get?_erase_of_ne hname]
    by_cases hkey : other = key
    · rw [hkey, Members.get?_assign_self, Members.get?_assign_self, Members.get?_erase_of_ne hne]
    · rw [Members.get?_assign_of_ne hkey, Members.get?_assign_of_ne hkey,
        Members.get?_erase_of_ne hname]

/-- It does not matter whether one name is erased before or after others are set. -/
theorem erase_assignAll (hname : name ∉ assignments.map Prod.fst) :
    (object.members.assignAll assignments).erase name =
      (object.erase name).members.assignAll assignments := by
  induction assignments generalizing object with
  | nil => rfl
  | cons assignment assignments ih =>
      obtain ⟨hne, hrest⟩ := not_or.mp (mt List.mem_cons.mpr hname)
      have hfirst : (object.assign assignment.1 assignment.2).erase name =
          (object.erase name).assign assignment.1 assignment.2 := erase_assign_of_ne (Ne.symm hne)
      have hassigned : (object.assign assignment.1 assignment.2).members =
          object.members.assign assignment.1 assignment.2 := rfl
      rw [Members.assignAll_cons, Members.assignAll_cons, ← hassigned, ih hrest, hfirst]
      rfl

end Erase

end Json.Object

end ExtensionLint
