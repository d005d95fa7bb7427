import ExtensionLint.Compatibility.Check
import Mathlib.Data.List.Lex

/-!
The walk in step through a manifest and compatibility data, as a relation. A stop is a node of the
data met at a value of the manifest; its place lists the numbers of the members and items on the way
from the top, so the order of places is the order in which the walk comes by. The visits of the check
are the stops in the order of their places.
-/

namespace ExtensionLint.Compatibility

/-- A node of the data at a value of the manifest. -/
structure Stop where
  /-- The keys on the way, as they are shown. -/
  path : String
  node : SupportTree
  value : Json
  isPermission : Bool

def Stop.visit (stop : Stop) : Visit := ⟨stop.path, stop.node.support?, stop.isPermission⟩

/-- The stops in a manifest, each at its place. -/
inductive Visited (tree : SupportTree) (properties : Json.Members) : List Nat → Stop → Prop where
  /-- A key at the top for which there is data. -/
  | key {i key value node} (hmember : properties[i]? = some (key, value))
      (hnode : tree.child? key = some node) :
      Visited tree properties [i] ⟨key, node, value, false⟩
  /-- A member of an object at a stop. -/
  | member {place path node members isPermission i name value child}
      (hstop : Visited tree properties place ⟨path, node, .object members, isPermission⟩)
      (hmember : members[i]? = some (name, value)) (hchild : node.child? name = some child) :
      Visited tree properties (place ++ [i]) ⟨path ++ "." ++ name, child, value, false⟩
  /-- A member of an object in an array at a stop. -/
  | itemMember {place path node items isPermission i members j name value child}
      (hstop : Visited tree properties place ⟨path, node, .array items, isPermission⟩)
      (hitem : items[i]? = some (.object members)) (hmember : members[j]? = some (name, value))
      (hchild : node.child? name = some child) :
      Visited tree properties (place ++ [i, j]) ⟨path ++ "." ++ name, child, value, false⟩
  /-- A name in a list of permissions at the top. -/
  | permission {i key items node j name child}
      (hkey : key = "permissions" ∨ key = "optional_permissions")
      (hmember : properties[i]? = some (key, .array items)) (hnode : tree.child? key = some node)
      (hitem : items[j]? = some (.string name)) (hchild : node.child? name = some child) :
      Visited tree properties [i, j] ⟨key ++ ":" ++ name, child, .string name, true⟩

/-- The stops from a stop, each at its place below it. -/
inductive From : Bool → Stop → List Nat → Stop → Prop where
  | here {listsPermissions stop} : From listsPermissions stop [] stop
  | member {listsPermissions path node members isPermission i name value child place stop}
      (hmember : members[i]? = some (name, value)) (hchild : node.child? name = some child)
      (hrest : From false ⟨path ++ "." ++ name, child, value, false⟩ place stop) :
      From listsPermissions ⟨path, node, .object members, isPermission⟩ (i :: place) stop
  | itemMember {listsPermissions path node items isPermission i members j name value child place stop}
      (hitem : items[i]? = some (.object members)) (hmember : members[j]? = some (name, value))
      (hchild : node.child? name = some child)
      (hrest : From false ⟨path ++ "." ++ name, child, value, false⟩ place stop) :
      From listsPermissions ⟨path, node, .array items, isPermission⟩ (i :: j :: place) stop
  | permission {path node items isPermission i name child}
      (hitem : items[i]? = some (.string name)) (hchild : node.child? name = some child) :
      From true ⟨path, node, .array items, isPermission⟩ [i]
        ⟨path ++ ":" ++ name, child, .string name, true⟩

namespace From

variable {listsPermissions isPermission : Bool} {path : String} {node : SupportTree}
  {place : List Nat} {start stop : Stop}

theorem nil_iff : From listsPermissions start [] stop ↔ stop = start := by
  constructor
  · intro hstop
    cases hstop with | here => rfl
  · rintro rfl
    exact .here

theorem of_false (hstop : From false start place stop) : From listsPermissions start place stop := by
  cases hstop with
  | here => exact .here
  | member hmember hchild hrest => exact .member hmember hchild hrest
  | itemMember hitem hmember hchild hrest => exact .itemMember hitem hmember hchild hrest

/-- Only the stops for permissions, at which nothing begins, come after one that lists them. -/
theorem trans {next : List Nat} {last : Stop} (hstop : From listsPermissions start place stop)
    (hlast : From false stop next last) : From listsPermissions start (place ++ next) last := by
  induction hstop with
  | here => exact hlast.of_false
  | member hmember hchild _ ih => exact .member hmember hchild (ih hlast)
  | itemMember hitem hmember hchild _ ih => exact .itemMember hitem hmember hchild (ih hlast)
  | permission hitem hchild => cases hlast with | here => exact .permission hitem hchild

/-- What lies below a stop at an object begins with one of its members. -/
theorem object_iff {members : Json.Members} :
    place ≠ [] ∧ From listsPermissions ⟨path, node, .object members, isPermission⟩ place stop ↔
      ∃ i member rest, members[i]? = some member ∧ place = i :: rest ∧
        ∃ child, node.child? member.1 = some child ∧
          From false ⟨path ++ "." ++ member.1, child, member.2, false⟩ rest stop := by
  constructor
  · rintro ⟨hplace, hstop⟩
    cases hstop with
    | here => exact absurd rfl hplace
    | member hmember hchild hrest => exact ⟨_, _, _, hmember, rfl, _, hchild, hrest⟩
  · rintro ⟨i, ⟨name, value⟩, rest, hmember, rfl, child, hchild, hrest⟩
    exact ⟨List.cons_ne_nil _ _, .member hmember hchild hrest⟩

/-- What lies below a stop at an array begins with a name among its items, or with a member of one. -/
theorem array_iff {items : List Json} :
    place ≠ [] ∧ From listsPermissions ⟨path, node, .array items, isPermission⟩ place stop ↔
      ∃ i item rest, items[i]? = some item ∧ place = i :: rest ∧
        ((∃ name child, item = .string name ∧ listsPermissions = true ∧
            node.child? name = some child ∧ rest = [] ∧
            stop = ⟨path ++ ":" ++ name, child, .string name, true⟩) ∨
          ∃ members, item = .object members ∧
            rest ≠ [] ∧ From false ⟨path, node, .object members, false⟩ rest stop) := by
  constructor
  · rintro ⟨hplace, hstop⟩
    cases hstop with
    | here => exact absurd rfl hplace
    | itemMember hitem hmember hchild hrest =>
        exact ⟨_, _, _, hitem, rfl, .inr ⟨_, rfl, List.cons_ne_nil _ _,
          .member hmember hchild hrest⟩⟩
    | permission hitem hchild =>
        exact ⟨_, _, _, hitem, rfl, .inl ⟨_, _, rfl, rfl, hchild, rfl, rfl⟩⟩
  · rintro ⟨i, item, rest, hitem, rfl, ⟨name, child, rfl, rfl, hchild, rfl, rfl⟩ |
      ⟨members, rfl, hrest⟩⟩
    · exact ⟨List.cons_ne_nil _ _, .permission hitem hchild⟩
    · obtain ⟨j, ⟨name, value⟩, rest, hmember, rfl, child, hchild, hrest⟩ := object_iff.mp hrest
      exact ⟨List.cons_ne_nil _ _, .itemMember hitem hmember hchild hrest⟩

end From

section Visited

variable {tree : SupportTree} {properties : Json.Members} {place : List Nat} {stop : Stop}

theorem contains_permissionKeys {key : String} :
    permissionKeys.contains key = true ↔ key = "permissions" ∨ key = "optional_permissions" := by
  simp [permissionKeys]

/-- What comes after a stop in a manifest is in the manifest. Permissions are only listed at the
top. -/
theorem From.visited {listsPermissions : Bool} {start : Stop} {next : List Nat}
    (hnext : From listsPermissions start next stop) (hstart : Visited tree properties place start)
    (htop : listsPermissions = true → ∃ i, place = [i] ∧
      (start.path = "permissions" ∨ start.path = "optional_permissions") ∧
      properties[i]? = some (start.path, start.value) ∧ tree.child? start.path = some start.node) :
    Visited tree properties (place ++ next) stop := by
  induction hnext generalizing place with
  | here => simpa using hstart
  | member hmember hchild _ ih =>
      simpa using ih (hstart.member hmember hchild) (fun hlists => absurd hlists (by decide))
  | itemMember hitem hmember hchild _ ih =>
      simpa using
        ih (hstart.itemMember hitem hmember hchild) (fun hlists => absurd hlists (by decide))
  | permission hitem hchild =>
      obtain ⟨i, rfl, hkey, hmember, hnode⟩ := htop rfl
      exact .permission hkey hmember hnode hitem hchild

theorem visited_iff :
    Visited tree properties place stop ↔
      ∃ i member rest, properties[i]? = some member ∧ place = i :: rest ∧
        ∃ node, tree.child? member.1 = some node ∧
          From (permissionKeys.contains member.1) ⟨member.1, node, member.2, false⟩ rest stop := by
  constructor
  · intro hstop
    induction hstop with
    | key hmember hnode => exact ⟨_, _, _, hmember, rfl, _, hnode, .here⟩
    | member _ hmember hchild ih =>
        obtain ⟨i, top, rest, htop, rfl, node, hnode, hfrom⟩ := ih
        exact ⟨i, top, _, htop, rfl, node, hnode, hfrom.trans (.member hmember hchild .here)⟩
    | itemMember _ hitem hmember hchild ih =>
        obtain ⟨i, top, rest, htop, rfl, node, hnode, hfrom⟩ := ih
        exact ⟨i, top, _, htop, rfl, node, hnode,
          hfrom.trans (.itemMember hitem hmember hchild .here)⟩
    | permission hkey hmember hnode hitem hchild =>
        refine ⟨_, _, _, hmember, rfl, _, hnode, ?_⟩
        rw [contains_permissionKeys.mpr hkey]
        exact .permission hitem hchild
  · rintro ⟨i, ⟨key, value⟩, rest, hmember, rfl, node, hnode, hfrom⟩
    exact hfrom.visited (.key hmember hnode)
      (fun hlists => ⟨i, rfl, contains_permissionKeys.mp hlists, hmember, hnode⟩)

end Visited

/-- Holds of visits that go through the stops of a relation in the order of their places. -/
def Enumerates (visits : List Visit) (At : List Nat → Stop → Prop) : Prop :=
  ∃ placed : List (List Nat × Stop), placed.map (fun entry => entry.2.visit) = visits ∧
    placed.Pairwise (fun a b => a.1.Lex (· < ·) b.1) ∧
    ∀ place stop, (place, stop) ∈ placed ↔ At place stop

namespace Enumerates

variable {visits more : List Visit} {At Later : List Nat → Stop → Prop}

theorem congr {Same : List Nat → Stop → Prop} (h : Enumerates visits At)
    (hiff : ∀ place stop, Same place stop ↔ At place stop) : Enumerates visits Same := by
  obtain ⟨placed, hmap, hsorted, hmem⟩ := h
  exact ⟨placed, hmap, hsorted, fun place stop => (hmem place stop).trans (hiff place stop).symm⟩

theorem nil (hnone : ∀ place stop, ¬At place stop) : Enumerates [] At :=
  ⟨[], rfl, .nil, fun place stop => by simpa using hnone place stop⟩

theorem single (stop : Stop) : Enumerates [stop.visit] fun place other => place = [] ∧ other = stop :=
  ⟨[([], stop)], rfl, List.pairwise_singleton _ _, by simp⟩

theorem append (h : Enumerates visits At) (hmore : Enumerates more Later)
    (hbefore : ∀ place stop next other, At place stop → Later next other → place.Lex (· < ·) next) :
    Enumerates (visits ++ more) fun place stop => At place stop ∨ Later place stop := by
  obtain ⟨placed, rfl, hsorted, hmem⟩ := h
  obtain ⟨later, rfl, hlaterSorted, hlaterMem⟩ := hmore
  refine ⟨placed ++ later, List.map_append, List.pairwise_append.mpr ⟨hsorted, hlaterSorted, ?_⟩, ?_⟩
  · rintro ⟨place, stop⟩ hplace ⟨next, other⟩ hnext
    exact hbefore place stop next other ((hmem place stop).mp hplace)
      ((hlaterMem next other).mp hnext)
  · intro place stop
    rw [List.mem_append, hmem, hlaterMem]

/-- The same stops, below the member or item of a number. -/
theorem below (n : Nat) (h : Enumerates visits At) :
    Enumerates visits fun place stop => ∃ rest, place = n :: rest ∧ At rest stop := by
  obtain ⟨placed, rfl, hsorted, hmem⟩ := h
  refine ⟨placed.map fun entry => (n :: entry.1, entry.2), ?_, ?_, ?_⟩
  · simp
  · exact List.pairwise_map.mpr (hsorted.imp .cons)
  · intro place stop
    simp only [List.mem_map, Prod.exists, Prod.mk.injEq, hmem]
    constructor
    · rintro ⟨rest, other, hrest, rfl, rfl⟩
      exact ⟨rest, rfl, hrest⟩
    · rintro ⟨rest, rfl, hrest⟩
      exact ⟨rest, stop, hrest, rfl, rfl⟩

/-- The stops of parts, in the order of the parts and each below the number of its part. -/
theorem flatMap {α : Type} {parts : List α} {visitsOf : α → List Visit}
    {AtPart : α → List Nat → Stop → Prop}
    (h : ∀ part ∈ parts, Enumerates (visitsOf part) (AtPart part)) :
    Enumerates (parts.flatMap visitsOf) fun place stop =>
      ∃ i part rest, parts[i]? = some part ∧ place = i :: rest ∧ AtPart part rest stop := by
  -- the induction is on the parts, the number of the first one being arbitrary
  have general : ∀ n, Enumerates (parts.flatMap visitsOf) fun place stop =>
      ∃ i part rest, parts[i]? = some part ∧ place = (n + i) :: rest ∧ AtPart part rest stop := by
    induction parts with
    | nil => exact fun n => nil (by simp)
    | cons part parts ih =>
        intro n
        simp only [List.mem_cons, forall_eq_or_imp] at h
        refine ((h.1.below n).append (ih h.2 (n + 1)) ?_).congr fun place stop => ?_
        · rintro _ _ _ _ ⟨rest, rfl, -⟩ ⟨i, -, other, -, rfl, -⟩
          exact .rel (by omega)
        · constructor
          · rintro ⟨_ | i, other, rest, hpart, rfl, hrest⟩
            · obtain rfl : part = other := by simpa using hpart
              exact .inl ⟨rest, rfl, hrest⟩
            · exact .inr ⟨i, other, rest, by simpa using hpart, by congr 1; omega, hrest⟩
          · rintro (⟨rest, rfl, hrest⟩ | ⟨i, other, rest, hpart, rfl, hrest⟩)
            · exact ⟨0, part, rest, rfl, rfl, hrest⟩
            · exact ⟨i + 1, other, rest, by simpa using hpart, by congr 1; omega, hrest⟩
  simpa using general 0

end Enumerates

section Visits

variable {listsPermissions isPermission : Bool} {path : String} {node : SupportTree}

def visitsBelow (listsPermissions : Bool) (path : String) (node : SupportTree) : Json → List Visit
  | .object members => memberVisits path node members
  | .array items => itemVisits listsPermissions path node items
  | _ => []

theorem visits_eq (value : Json) :
    visits listsPermissions isPermission path node value =
      ⟨path, node.support?, isPermission⟩ :: visitsBelow listsPermissions path node value := by
  cases value <;> simp [visits, visitsBelow]

/-- The visits from a value, if there is data for its key. -/
def childVisits (listsPermissions : Bool) (path : String) (child? : Option SupportTree)
    (value : Json) : List Visit :=
  match child? with
  | some child => visits listsPermissions false path child value
  | none => []

theorem manifestVisits_cons (tree : SupportTree) (key : String) (value : Json)
    (properties : Json.Members) :
    manifestVisits tree ((key, value) :: properties) =
      childVisits (permissionKeys.contains key) key (tree.child? key) value ++
        manifestVisits tree properties := rfl

/-- The visits from an item of an array. -/
def itemVisitsOf (listsPermissions : Bool) (path : String) (node : SupportTree) : Json → List Visit
  | .string name =>
      match listsPermissions, node.child? name with
      | true, some child => [⟨path ++ ":" ++ name, child.support?, true⟩]
      | _, _ => []
  | .object members => memberVisits path node members
  | _ => []

theorem memberVisits_eq (members : List (String × Json)) :
    memberVisits path node members = members.flatMap fun member =>
      childVisits false (path ++ "." ++ member.1) (node.child? member.1) member.2 := by
  induction members with
  | nil => simp [memberVisits]
  | cons member members ih => rw [memberVisits, ih, List.flatMap_cons]; rfl

theorem itemVisits_eq (items : List Json) :
    itemVisits listsPermissions path node items =
      items.flatMap (itemVisitsOf listsPermissions path node) := by
  induction items with
  | nil => simp [itemVisits]
  | cons item items ih =>
      rw [List.flatMap_cons, ← ih]
      cases item <;> rfl

/-- A stop comes before everything below it. -/
theorem enumerates_visits {value : Json}
    (hbelow : Enumerates (visitsBelow listsPermissions path node value) fun place stop =>
      place ≠ [] ∧ From listsPermissions ⟨path, node, value, isPermission⟩ place stop) :
    Enumerates (visits listsPermissions isPermission path node value)
      (From listsPermissions ⟨path, node, value, isPermission⟩) := by
  rw [visits_eq]
  refine ((Enumerates.single ⟨path, node, value, isPermission⟩).append hbelow ?_).congr
    fun place stop => ?_
  · rintro _ _ next _ ⟨rfl, -⟩ ⟨hnext, -⟩
    obtain ⟨i, rest, rfl⟩ := List.exists_cons_of_ne_nil hnext
    exact .nil
  · cases place with
    | nil => simp [From.nil_iff]
    | cons i rest => simp

theorem enumerates_childVisits {child? : Option SupportTree} {value : Json}
    (hvalue : ∀ node, Enumerates (visits listsPermissions false path node value)
      (From listsPermissions ⟨path, node, value, false⟩)) :
    Enumerates (childVisits listsPermissions path child? value) fun place stop =>
      ∃ child, child? = some child ∧ From listsPermissions ⟨path, child, value, false⟩ place stop := by
  cases child? with
  | none => exact .nil (by simp)
  | some child => exact (hvalue child).congr (by simp)

/-- The visits below a stop are the stops below it, in the order of their places. -/
theorem enumerates_visitsBelow (value : Json) :
    ∀ listsPermissions isPermission path node,
      Enumerates (visitsBelow listsPermissions path node value) fun place stop =>
        place ≠ [] ∧ From listsPermissions ⟨path, node, value, isPermission⟩ place stop := by
  induction value using Json.inductionOn with
  | null | bool | number | string =>
      intro listsPermissions isPermission path node
      refine .nil ?_
      rintro _ _ ⟨hplace, hstop⟩
      cases hstop with | here => exact hplace rfl
  | object members ih =>
      intro listsPermissions isPermission path node
      rw [visitsBelow, memberVisits_eq]
      refine (Enumerates.flatMap fun member hmember => ?_).congr fun place stop => From.object_iff
      exact enumerates_childVisits fun child => enumerates_visits (ih member hmember _ _ _ child)
  | array items ih =>
      intro listsPermissions isPermission path node
      rw [visitsBelow, itemVisits_eq]
      refine (Enumerates.flatMap fun item hitem => ?_).congr fun place stop => From.array_iff
      cases item with
      | null | bool | number | array => exact .nil (by simp)
      | object members =>
          exact (ih _ hitem false false path node).congr (by simp)
      | string name =>
          cases listsPermissions with
          | false => exact .nil (by simp)
          | true =>
              cases hchild : node.child? name with
              | none => simpa [itemVisitsOf, hchild] using Enumerates.nil (by simp)
              | some child =>
                  have hsingle := Enumerates.single ⟨path ++ ":" ++ name, child, .string name, true⟩
                  simpa [itemVisitsOf, hchild, Stop.visit] using hsingle

/-- The visits of a manifest are its stops, in the order of their places. -/
theorem enumerates_manifestVisits (tree : SupportTree) (properties : Json.Members) :
    Enumerates (manifestVisits tree properties) (Visited tree properties) := by
  refine (Enumerates.flatMap fun member _ => ?_).congr fun place stop => visited_iff
  exact enumerates_childVisits fun node => enumerates_visits (enumerates_visitsBelow _ _ _ _ node)

end Visits

end ExtensionLint.Compatibility
