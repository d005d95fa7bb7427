import ExtensionLint.Compatibility.Support
import ExtensionLint.Proofs.Members
import ExtensionLint.Proofs.SoundValues
import Mathlib.Data.List.Forall2

/-!
Compatibility data as it is seen through its tree. A node stands for an object of the data, and
going down the tree along names is going from object to object; only the name of statements leads
nowhere. A node shows the statement of its object and whether there are objects below, so nothing of
the data that the check asks for is lost, and nothing is added.
-/

namespace ExtensionLint

namespace Json

section WellFormed

variable {value next : Json}

theorem WellFormed.member {members : Members} {name : String} (h : (object members).WellFormed)
    (hmember : members.get? name = some next) : next.WellFormed :=
  wellFormedMembers_iff.mp h.2 (name, next) (Members.mem_of_get? hmember)

theorem WellFormed.step? {index? : List Char → Option Nat} {token : List Char}
    (h : value.WellFormed) (hstep : Pointer.step? index? value token = some next) : next.WellFormed := by
  cases value with
  | null | bool | number | string => cases hstep
  | object members => exact h.member hstep
  | array items =>
      obtain ⟨i, -, hitem⟩ := Option.bind_eq_some_iff.mp hstep
      exact wellFormedItems_iff.mp h next (List.mem_of_getElem? hitem)

theorem WellFormed.pointer? {pointer : String} (h : value.WellFormed)
    (hpointer : value.pointer? pointer = some next) : next.WellFormed := by
  obtain ⟨tokens, -, hwalk⟩ := Option.bind_eq_some_iff.mp hpointer
  clear hpointer
  induction tokens generalizing value with
  | nil => exact Option.some.inj hwalk ▸ h
  | cons token tokens ih =>
      obtain ⟨inner, hstep, hrest⟩ := Option.bind_eq_some_iff.mp hwalk
      exact ih (h.step? hstep) hrest

end WellFormed

/-- A value in which the members of every object ascend, as in every value that is read. -/
structure Document where
  value : Json
  wellFormed : value.WellFormed

end Json

namespace SupportTree

/-- The part of compatibility data about the keys of manifests: what stands at its place in the
whole data, or the data if nothing stands there. -/
def manifestPart (data : Json) : Json := (data.pointer? "/webextensions/manifest").getD data

/-- Holds of the members of the object to which names lead in turn, each of them from object to
object. -/
inductive LeadsTo : Json → List String → Json.Members → Prop where
  | here {members : Json.Members} : LeadsTo (.object members) [] members
  | member {members found : Json.Members} {name : String} {value : Json} {names : List String}
      (hmember : members.get? name = some value) (hrest : LeadsTo value names found) :
      LeadsTo (.object members) (name :: names) found

/-- Holds of the statement of support among the members of an object. -/
def HasStatement (members : Json.Members) (statement : Json) : Prop :=
  ∃ compat, members.get? "__compat" = some compat ∧ compat.get? "support" = some statement

/-- Holds of the range of an entry: it starts with the version that the entry gives as a text. -/
def StartsWith (entry : Json) (range : SupportRange) : Prop :=
  ∀ version, range.since = some version ↔ entry.get? "version_added" = some (.string version)

/-- Holds of the ranges that a statement lists for a platform, in their order: one for each item of
an array, one for an object, and none for any other value. -/
inductive Lists (value : Option Json) : List SupportRange → Prop where
  | array {entries : List Json} {ranges : List SupportRange}
      (hvalue : value = some (.array entries))
      (hranges : List.Forall₂ StartsWith entries ranges) : Lists value ranges
  | object {members : Json.Members} {range : SupportRange} (hvalue : value = some (.object members))
      (hrange : StartsWith (.object members) range) : Lists value [range]
  | other (harray : ∀ entries, value ≠ some (.array entries))
      (hobject : ∀ members, value ≠ some (.object members)) : Lists value []

/-- Holds of a node that shows an object of the data as it is. -/
structure Shows (members : Json.Members) (node : SupportTree) : Prop where
  present : node.support?.isSome = true ↔ ∃ statement, HasStatement members statement
  ranges : ∀ support statement, node.support? = some support → HasStatement members statement →
    Lists (statement.get? "firefox") support.desktop ∧
      Lists (statement.get? "firefox_android") support.android
  leaf : node.isLeaf = true ↔ (∃ statement, HasStatement members statement) ∧
    ∀ name inner, members.get? name = some (.object inner) → name = "__compat"

section Make

variable (support : Option Support) (children : List (String × SupportTree))

@[simp] theorem support?_make : (make support children).support? = support := by
  fun_cases make support children <;> rfl

@[simp] theorem child?_make (name : String) :
    (make support children).child? name = children.lookup name := by
  fun_cases make support children <;> rfl

theorem isLeaf_make : (make support children).isLeaf = true ↔ support.isSome ∧ children = [] := by
  fun_cases make support children with
  | case1 support => simp [isLeaf]
  | case2 support children hmake =>
      cases support with
      | none => simp [isLeaf]
      | some support => simpa [isLeaf] using fun hnil => hmake support rfl hnil

end Make

theorem ofJson?_eq_some_iff {value : Json} {tree : SupportTree} :
    ofJson? value = some tree ↔
      ∃ members,
        value = .object members ∧ tree = make (statement? members) (childrenOf members) := by
  cases value <;> simp [ofJson?, eq_comm]

section Children

variable {members : Json.Members} (hnodup : (members.map Prod.fst).Nodup)

include hnodup

/-- The child of a name is made of the object that the name leads to. -/
theorem lookup_childrenOf (name : String) :
    (childrenOf members).lookup name =
      if name = statementKey then none else (members.get? name).bind ofJson? := by
  induction members with
  | nil => simp [childrenOf, Json.Members.get?]
  | cons member members ih =>
      obtain ⟨key, value⟩ := member
      obtain ⟨hkey, hrest⟩ := List.nodup_cons.mp hnodup
      have hother : Json.Members.get? members key = none := by
        refine List.lookup_eq_none_iff.mpr fun member hmember => bne_iff_ne.mpr fun hsame => ?_
        exact hkey (List.mem_map.mpr ⟨member, hmember, hsame.symm⟩)
      rw [childrenOf, Json.Members.get?, List.lookup_cons]
      by_cases hname : name = key
      · subst hname
        rw [beq_self_eq_true]
        split
        · next hstatement => rw [ih hrest, if_pos hstatement]
        · next hstatement =>
            cases hvalue : ofJson? value with
            | some child => simp [hvalue]
            | none => simp [ih hrest, hother, hvalue]
      · rw [beq_eq_false_iff_ne.mpr hname, ← Json.Members.get?, ← ih hrest]
        split
        · rfl
        · cases ofJson? value with
          | some child => simp [List.lookup_cons, beq_eq_false_iff_ne.mpr hname]
          | none => rfl

theorem childrenOf_eq_nil_iff :
    childrenOf members = [] ↔
      ∀ name inner, members.get? name = some (.object inner) → name = statementKey := by
  constructor
  · intro hnil name inner hmember
    by_contra hname
    have hchild := lookup_childrenOf hnodup name
    rw [hnil, if_neg hname, hmember] at hchild
    cases hchild
  · intro hnone
    cases hchildren : childrenOf members with
    | nil => rfl
    | cons entry rest =>
        obtain ⟨name, child⟩ := entry
        have hchild := lookup_childrenOf hnodup name
        rw [hchildren, List.lookup_cons_self] at hchild
        split at hchild
        · cases hchild
        · next hname =>
            obtain ⟨value, hmember, hvalue⟩ := Option.bind_eq_some_iff.mp hchild.symm
            obtain ⟨inner, rfl, -⟩ := ofJson?_eq_some_iff.mp hvalue
            exact absurd (hnone name inner hmember) hname

end Children

section Statement

theorem startsWith_rangeOfJson (entry : Json) : StartsWith entry (Support.rangeOfJson entry) := by
  intro version
  rw [Support.rangeOfJson, Option.bind_eq_some_iff]
  constructor
  · rintro ⟨value, hvalue, hversion⟩
    rw [hvalue, Json.string?_eq_some.mp hversion]
  · intro hvalue
    exact ⟨_, hvalue, rfl⟩

theorem lists_rangesOfJson (value : Option Json) : Lists value (Support.rangesOfJson value) := by
  fun_cases Support.rangesOfJson value with
  | case1 entries =>
      refine .array rfl (List.forall₂_map_right_iff.mpr (List.forall₂_same.mpr fun entry _ => ?_))
      exact startsWith_rangeOfJson entry
  | case2 members => exact .object rfl (startsWith_rangeOfJson _)
  | case3 value harray hobject => exact .other harray hobject

theorem statement?_eq_some_iff {members : Json.Members} {support : Support} :
    statement? members = some support ↔
      ∃ statement, HasStatement members statement ∧ Support.ofJson statement = support := by
  rw [statement?, Option.map_eq_some_iff]
  simp only [Option.bind_eq_some_iff, HasStatement, statementKey]

theorem HasStatement.unique {members : Json.Members} {statement other : Json}
    (h : HasStatement members statement) (hother : HasStatement members other) :
    statement = other := by
  obtain ⟨compat, hcompat, hsupport⟩ := h
  obtain ⟨same, hsame, hother⟩ := hother
  obtain rfl := Option.some.inj (hcompat.symm.trans hsame)
  exact Option.some.inj (hsupport.symm.trans hother)

end Statement

theorem shows_make {members : Json.Members} (hnodup : (members.map Prod.fst).Nodup) :
    Shows members (make (statement? members) (childrenOf members)) := by
  have hpresent :
      (statement? members).isSome = true ↔ ∃ statement, HasStatement members statement := by
    rw [Option.isSome_iff_exists]
    constructor
    · rintro ⟨support, hsupport⟩
      obtain ⟨statement, hstatement, -⟩ := statement?_eq_some_iff.mp hsupport
      exact ⟨statement, hstatement⟩
    · rintro ⟨statement, hstatement⟩
      exact ⟨_, statement?_eq_some_iff.mpr ⟨statement, hstatement, rfl⟩⟩
  refine ⟨by rw [support?_make, hpresent], fun support statement hsupport hstatement => ?_, ?_⟩
  · rw [support?_make] at hsupport
    obtain ⟨other, hother, rfl⟩ := statement?_eq_some_iff.mp hsupport
    rw [hstatement.unique hother]
    exact ⟨lists_rangesOfJson _, lists_rangesOfJson _⟩
  · rw [isLeaf_make, hpresent, childrenOf_eq_nil_iff hnodup, statementKey]

section Descend

theorem LeadsTo.exists_object {value : Json} {names : List String} {members : Json.Members}
    (h : LeadsTo value names members) : ∃ outer, value = .object outer := by
  cases h with
  | here => exact ⟨_, rfl⟩
  | member => exact ⟨_, rfl⟩

theorem LeadsTo.wellFormed {value : Json} {names : List String} {members : Json.Members}
    (h : LeadsTo value names members) (hvalue : value.WellFormed) :
    (Json.object members).WellFormed := by
  induction h with
  | here => exact hvalue
  | member hmember _ ih => exact ih (hvalue.member hmember)

theorem LeadsTo.unique {value : Json} {names : List String} {members others : Json.Members}
    (h : LeadsTo value names members) (hothers : LeadsTo value names others) :
    members = others := by
  induction h with
  | here => cases hothers with | here => rfl
  | member hmember _ ih =>
      cases hothers with
      | member hother hrest =>
          obtain rfl := Option.some.inj (hmember.symm.trans hother)
          exact ih hrest

/-- Going down a tree is going from object to object, past no statement. -/
theorem descend?_eq_some_iff {data : Json.Document} {tree node : SupportTree} {names : List String}
    (htree : ofJson? data.value = some tree) :
    tree.descend? names = some node ↔
      "__compat" ∉ names ∧
        ∃ members, LeadsTo data.value names members ∧ ofJson? (.object members) = some node := by
  obtain ⟨value, hvalue⟩ := data
  induction names generalizing value tree with
  | nil =>
      obtain ⟨members, rfl, -⟩ := ofJson?_eq_some_iff.mp htree
      rw [descend?, ← htree]
      constructor
      · intro hnode
        exact ⟨List.not_mem_nil, members, .here, hnode⟩
      · rintro ⟨-, _, ⟨⟩, hnode⟩
        exact hnode
  | cons name names ih =>
      obtain ⟨members, rfl, rfl⟩ := ofJson?_eq_some_iff.mp htree
      rw [descend?, child?_make, lookup_childrenOf hvalue.1.nodup,
        List.mem_cons, not_or]
      split
      · next hname => simp [hname, statementKey]
      · next hname =>
          simp only [Option.bind_eq_some_iff]
          constructor
          · rintro ⟨child, ⟨inner, hmember, hchild⟩, hnode⟩
            obtain ⟨hnames, found, hleads, hfound⟩ := (ih _ (hvalue.member hmember) hchild).mp hnode
            exact ⟨⟨Ne.symm hname, hnames⟩, found, .member hmember hleads, hfound⟩
          · rintro ⟨⟨-, hnames⟩, found, hleads, hfound⟩
            cases hleads with
            | member hmember hrest =>
                obtain ⟨inner, rfl⟩ := hrest.exists_object
                have hchild := ofJson?_eq_some_iff.mpr ⟨inner, rfl, rfl⟩
                refine ⟨_, ⟨_, hmember, hchild⟩, ?_⟩
                exact (ih _ (hvalue.member hmember) hchild).mpr ⟨hnames, found, hrest, hfound⟩

end Descend

/-- The part about the keys of manifests, with what is known of the whole. -/
def documentPart (data : Json.Document) : Json.Document :=
  ⟨manifestPart data.value, by
    rw [manifestPart]
    cases hpart : data.value.pointer? "/webextensions/manifest" with
    | none => exact data.wellFormed
    | some part => exact data.wellFormed.pointer? hpart⟩

theorem ofData_eq_ok_iff {data : Json} {tree : SupportTree} :
    ofData data = .ok tree ↔ ofJson? (manifestPart data) = some tree := by
  rw [ofData, manifestPart]
  split
  · next made hmade => rw [hmade, Except.ok.injEq, Option.some.injEq]
  · next hmade => simp [hmade]

/-- The tree of compatibility data shows the data. Names lead to a node if they lead to an object in
the part about manifests and none is the name of statements, and the node shows that object. The whole
data and its part alone have the same tree. -/
theorem ofData_shows (data : Json.Document) {tree : SupportTree}
    (haccepted : ofData data.value = .ok tree) :
    (∀ names,
      ((tree.descend? names).isSome = true ↔
        (∃ members, LeadsTo (manifestPart data.value) names members) ∧ "__compat" ∉ names) ∧
      ∀ node members, tree.descend? names = some node →
        LeadsTo (manifestPart data.value) names members → Shows members node) ∧
    ∀ part, data.value.pointer? "/webextensions/manifest" = some part →
      part.pointer? "/webextensions/manifest" = none → ofData part = .ok tree := by
  have htree : ofJson? (documentPart data).value = some tree := ofData_eq_ok_iff.mp haccepted
  refine ⟨fun names => ⟨?_, fun node members hnode hleads => ?_⟩, fun part hplace hnone => ?_⟩
  · rw [Option.isSome_iff_exists]
    constructor
    · rintro ⟨node, hnode⟩
      obtain ⟨hnames, members, hleads, -⟩ := (descend?_eq_some_iff htree).mp hnode
      exact ⟨⟨members, hleads⟩, hnames⟩
    · rintro ⟨⟨members, hleads⟩, hnames⟩
      exact ⟨_, (descend?_eq_some_iff htree).mpr ⟨hnames, members, hleads, rfl⟩⟩
  · obtain ⟨-, found, hfound, hmade⟩ := (descend?_eq_some_iff htree).mp hnode
    obtain rfl := hleads.unique hfound
    obtain ⟨same, hsame, rfl⟩ := ofJson?_eq_some_iff.mp hmade
    obtain rfl := Json.object.inj hsame
    exact shows_make (hleads.wellFormed (documentPart data).wellFormed).1.nodup
  · have hsame : manifestPart part = manifestPart data.value := by
      rw [manifestPart, manifestPart, hplace, hnone]
      rfl
    rw [ofData_eq_ok_iff, hsame]
    exact htree

/-- A key with a key below and a value that is no object; both keys have a statement. -/
theorem ofData_shows_background :
    let entry := fun version : Json => Json.object [("version_added", version)]
    let compat := fun ranges : Json =>
      Json.object [("support", .object [("firefox", ranges), ("firefox_android", .bool false)])]
    let worker := [("__compat", compat (.array [entry (.string "121"), entry (.bool true)]))]
    let part := Json.object [("background", .object
      [("__compat", compat (entry (.string "45"))), ("preferred", .null),
        ("service_worker", .object worker)])]
    let data := Json.object [("webextensions", .object [("manifest", part)])]
    data.WellFormed ∧ ∃ tree node, ofData data = .ok tree ∧ ofData part = .ok tree ∧
      tree.descend? ["background", "service_worker"] = some node ∧ Shows worker node ∧
      tree.descend? ["background", "preferred"] = none ∧
      tree.descend? ["background", "__compat"] = none := by
  intro entry compat worker part data
  have hdata : data.WellFormed := by
    simp only [data, part, worker, compat, entry, Json.WellFormed, Json.WellFormedItems,
      Json.WellFormedMembers]
    decide
  have haccepted : ofData data = .ok _ := rfl
  obtain ⟨hshows, hsame⟩ := ofData_shows ⟨data, hdata⟩ haccepted
  have hleads : LeadsTo (manifestPart data) ["background", "service_worker"] worker :=
    .member rfl (.member rfl .here)
  have hworker := (hshows ["background", "service_worker"]).2 _ worker rfl hleads
  exact ⟨hdata, _, _, rfl, hsame part rfl rfl, rfl, hworker, rfl, rfl⟩

end SupportTree
end ExtensionLint
