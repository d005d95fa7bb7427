import ExtensionLint.Package.Directory
import ExtensionLint.Proofs.Members
import ExtensionLint.Proofs.PackagePath
import ExtensionLint.Proofs.Pointer
import Mathlib.Data.String.Basic

/-!
Trees whose names are those of files. The path of a file is the text of the names that lead to it,
with slashes between. It leads back along the same names when it is followed, it is its own
canonical spelling, and it ends in no slash. Walking a tree meets just what names lead to, so these
are the files and directories of a listing.
-/

namespace ExtensionLint

theorem Text.endsWith_iff_suffix {α : Type} [BEq α] [LawfulBEq α] {back s : List α} :
    endsWith back s = true ↔ back <:+ s := by
  rw [endsWith, List.isPrefixOf_iff_prefix, List.reverse_prefix]

namespace DiskPath

/-- A name that a path can go down by: it stands for itself and is one component in any spelling. -/
structure IsName (name : String) : Prop where
  ne_empty : name ≠ ""
  ne_current : name ≠ "."
  ne_parent : name ≠ ".."
  slash : '/' ∉ name.toList
  backslash : '\\' ∉ name.toList

instance (name : String) : Decidable (IsName name) :=
  decidable_of_iff
    (name ≠ "" ∧ name ≠ "." ∧ name ≠ ".." ∧ '/' ∉ name.toList ∧ '\\' ∉ name.toList)
    ⟨fun ⟨hempty, hcurrent, hparent, hslash, hback⟩ =>
      ⟨hempty, hcurrent, hparent, hslash, hback⟩,
    fun h => ⟨h.ne_empty, h.ne_current, h.ne_parent, h.slash, h.backslash⟩⟩

variable {names : List String}

theorem toList_intercalate_cons_cons (name next : String) (names : List String) :
    (String.intercalate "/" (name :: next :: names)).toList
      = name.toList ++ '/' :: (String.intercalate "/" (next :: names)).toList := by
  simp [String.toList_intercalate]

theorem components_intercalate (hne : names ≠ []) (hnames : ∀ name ∈ names, IsName name) :
    components (String.intercalate "/" names) = names := by
  rw [components]
  induction names with
  | nil => exact absurd rfl hne
  | cons name names ih =>
      obtain ⟨hname, hrest⟩ := List.forall_mem_cons.mp hnames
      have hplain : ∀ c ∈ name.toList, (c == '/') = false := by
        intro c hc
        exact beq_eq_false_iff_ne.mpr fun heq => hname.slash (heq ▸ hc)
      cases names with
      | nil =>
          rw [String.intercalate_singleton, Text.splitBy_eq_singleton hplain, List.map_singleton,
            String.ofList_toList]
      | cons next names =>
          have hcut : Text.splitBy (· == '/')
              ('/' :: (String.intercalate "/" (next :: names)).toList)
              = [] :: Text.splitBy (· == '/') (String.intercalate "/" (next :: names)).toList := rfl
          rw [toList_intercalate_cons_cons, Text.splitBy_append hplain hcut, List.append_nil,
            List.map_cons, String.ofList_toList, ih (List.cons_ne_nil next names) hrest]

/-- A slash in a text that starts with a name is the one after the name or comes later. -/
theorem slash_after_name {name below front rest : List Char} (hname : '/' ∉ name)
    (h : name ++ '/' :: below = front ++ '/' :: rest) :
    (front = name ∧ rest = below) ∨
      ∃ inner, front = name ++ '/' :: inner ∧ below = inner ++ '/' :: rest := by
  obtain ⟨inner, hfront, hrest⟩ | ⟨inner, hcut, hrest⟩ := List.append_eq_append_iff.mp h
  · cases inner with
    | nil =>
        left
        exact ⟨by rw [hfront, List.append_nil], (List.cons_eq_cons.mp hrest).2.symm⟩
    | cons c inner =>
        obtain ⟨rfl, hbelow⟩ := List.cons_eq_cons.mp hrest
        exact .inr ⟨inner, hfront, hbelow⟩
  · cases inner with
    | nil =>
        left
        exact ⟨by rw [hcut, List.append_nil], (List.cons_eq_cons.mp hrest).2⟩
    | cons c inner =>
        obtain ⟨rfl, -⟩ := List.cons_eq_cons.mp hrest
        exact absurd (hcut ▸ List.mem_append_right front List.mem_cons_self) hname

/-- A slash in a path stands between names. -/
theorem exists_of_toList_intercalate (hnames : ∀ name ∈ names, IsName name)
    {front rest : List Char} (h : (String.intercalate "/" names).toList = front ++ '/' :: rest) :
    ∃ before after, before ≠ [] ∧ after ≠ [] ∧ names = before ++ after ∧
      (String.intercalate "/" before).toList = front ∧
      (String.intercalate "/" after).toList = rest := by
  induction names generalizing front with
  | nil => simp at h
  | cons name names ih =>
      obtain ⟨hname, hrest⟩ := List.forall_mem_cons.mp hnames
      cases names with
      | nil =>
          rw [String.intercalate_singleton] at h
          exact absurd (h ▸ List.mem_append_right front List.mem_cons_self) hname.slash
      | cons next names =>
          rw [toList_intercalate_cons_cons] at h
          rcases slash_after_name hname.slash h with ⟨rfl, rfl⟩ | ⟨inner, rfl, hbelow⟩
          · refine ⟨[name], next :: names, List.cons_ne_nil _ _, List.cons_ne_nil _ _, rfl, ?_, rfl⟩
            rw [String.intercalate_singleton]
          · obtain ⟨before, after, hbefore, hafter, hnext, rfl, hend⟩ := ih hrest hbelow
            obtain ⟨first, before, rfl⟩ := List.exists_cons_of_ne_nil hbefore
            refine ⟨name :: first :: before, after, List.cons_ne_nil _ _, hafter,
              congrArg (name :: ·) hnext, ?_, hend⟩
            rw [toList_intercalate_cons_cons]

theorem backslash_not_mem_intercalate (hnames : ∀ name ∈ names, IsName name) :
    '\\' ∉ (String.intercalate "/" names).toList := by
  induction names with
  | nil => simp
  | cons name names ih =>
      obtain ⟨hname, hrest⟩ := List.forall_mem_cons.mp hnames
      cases names with
      | nil =>
          rw [String.intercalate_singleton]
          exact hname.backslash
      | cons next names =>
          rw [toList_intercalate_cons_cons, List.mem_append, List.mem_cons, not_or, not_or]
          exact ⟨hname.backslash, by decide, ih hrest⟩

/-- A path that is one component is the name that it is made of. -/
theorem mem_of_intercalate_eq (hne : names ≠ []) (hnames : ∀ name ∈ names, IsName name) {text : String}
    (htext : components text = [text]) (h : String.intercalate "/" names = text) : text ∈ names := by
  rw [← components_intercalate hne hnames, h, htext]
  exact List.mem_singleton_self text

theorem intercalate_ne_empty (hne : names ≠ []) (hnames : ∀ name ∈ names, IsName name) :
    String.intercalate "/" names ≠ "" := by
  intro hempty
  have hmem := mem_of_intercalate_eq hne hnames (by decide) hempty
  exact (hnames "" hmem).ne_empty rfl

theorem intercalate_ne_current (hne : names ≠ []) (hnames : ∀ name ∈ names, IsName name) :
    String.intercalate "/" names ≠ "." := by
  intro hcurrent
  have hmem := mem_of_intercalate_eq hne hnames (by decide) hcurrent
  exact (hnames "." hmem).ne_current rfl

theorem not_endsWith_intercalate (hnames : ∀ name ∈ names, IsName name) :
    Text.endsWith ['/'] (String.intercalate "/" names).toList = false := by
  by_contra hends
  obtain ⟨front, hfront⟩ := Text.endsWith_iff_suffix.mp (Bool.of_not_eq_false hends)
  obtain ⟨before, after, -, hafter, rfl, -, hrest⟩ :=
    exists_of_toList_intercalate hnames hfront.symm
  exact intercalate_ne_empty hafter (List.forall_mem_append.mp hnames).2 (String.toList_inj.mp hrest)

theorem toList_intercalate_ne_slash (hnames : ∀ name ∈ names, IsName name) {rest : List Char} :
    (String.intercalate "/" names).toList ≠ '/' :: rest := by
  rw [← List.nil_append ('/' :: rest)]
  intro hrest
  obtain ⟨before, after, hbefore, -, rfl, hfront, -⟩ := exists_of_toList_intercalate hnames hrest
  exact intercalate_ne_empty hbefore (List.forall_mem_append.mp hnames).1
    (String.toList_inj.mp hfront)

theorem toList_intercalate_ne_current (hnames : ∀ name ∈ names, IsName name) {rest : List Char} :
    (String.intercalate "/" names).toList ≠ '.' :: '/' :: rest := by
  rw [← List.singleton_append]
  intro hrest
  obtain ⟨before, after, hbefore, -, rfl, hfront, -⟩ := exists_of_toList_intercalate hnames hrest
  exact intercalate_ne_current hbefore (List.forall_mem_append.mp hnames).1
    (String.toList_inj.mp hfront)

theorem normalize_intercalate (hnames : ∀ name ∈ names, IsName name) :
    PackagePath.normalize (String.intercalate "/" names) = String.intercalate "/" names := by
  refine PackagePath.normalize_eq_self_iff.mpr ⟨backslash_not_mem_intercalate hnames, ?_, ?_⟩
  · rintro ⟨rest, hrest⟩
    exact toList_intercalate_ne_slash hnames hrest.symm
  · rintro ⟨rest, hrest⟩
    exact toList_intercalate_ne_current hnames hrest.symm

end DiskPath

namespace FileTree

/-- Holds of a tree whose directories have each name once, and only names of files. -/
inductive Proper : FileTree → Prop where
  | file (content : Bytes) : Proper (.file content)
  | directory {entries : List (String × FileTree)} (hnodup : (entries.map Prod.fst).Nodup)
      (hnames : ∀ entry ∈ entries, DiskPath.IsName entry.1)
      (hinside : ∀ entry ∈ entries, Proper entry.2) : Proper (.directory entries)

variable {tree entry : FileTree} {names : List String}

theorem descend?_append (tree : FileTree) (before after : List String) :
    tree.descend? (before ++ after)
      = (tree.descend? before).bind fun entry => entry.descend? after := by
  induction before generalizing tree with
  | nil => rfl
  | cons name before ih =>
      rw [List.cons_append, descend?, descend?]
      cases hentry : tree.entries.lookup name with
      | none => rfl
      | some entry => exact ih entry

/-- Names that go on lead through a directory. -/
theorem exists_directory_of_descend? {before after : List String} (hafter : after ≠ [])
    (h : tree.descend? (before ++ after) = some entry) :
    ∃ entries, tree.descend? before = some (.directory entries) := by
  rw [descend?_append, Option.bind_eq_some_iff] at h
  obtain ⟨above, habove, hentry⟩ := h
  obtain ⟨name, after, rfl⟩ := List.exists_cons_of_ne_nil hafter
  cases above with
  | file content => simp [descend?, entries] at hentry
  | directory entries => exact ⟨entries, habove⟩

/-- All names that lead somewhere in a proper tree are names of files. -/
theorem Proper.isName_of_descend? (htree : tree.Proper) (h : tree.descend? names = some entry) :
    ∀ name ∈ names, DiskPath.IsName name := by
  induction names generalizing tree with
  | nil => simp
  | cons name names ih =>
      rw [descend?, Option.bind_eq_some_iff] at h
      obtain ⟨child, hchild, hentry⟩ := h
      cases htree with
      | file content => cases hchild
      | directory hnodup hnames hinside =>
          have hmem := (Ordered.lookup_eq_some_iff_mem hnodup).mp hchild
          exact List.forall_mem_cons.mpr ⟨hnames _ hmem, ih (hinside _ hmem) hentry⟩

theorem walkEntries_eq (entries : List (String × FileTree)) :
    walkEntries entries = entries.flatMap fun entry =>
      ([entry.1], entry.2) :: entry.2.walk.map fun inside => (entry.1 :: inside.1, inside.2) := by
  induction entries with
  | nil => rfl
  | cons entry entries ih => rw [walkEntries, ih, List.flatMap_cons]

theorem mem_walkEntries {entries : List (String × FileTree)} :
    (names, entry) ∈ walkEntries entries ↔ ∃ name child below, (name, child) ∈ entries ∧
      names = name :: below ∧ (below = [] ∧ entry = child ∨ (below, entry) ∈ child.walk) := by
  rw [walkEntries_eq, List.mem_flatMap]
  constructor
  · rintro ⟨⟨name, child⟩, hchild, hmem⟩
    rcases List.mem_cons.mp hmem with hself | hinside
    · obtain ⟨rfl, rfl⟩ := Prod.mk.inj hself
      exact ⟨name, entry, [], hchild, rfl, .inl ⟨rfl, rfl⟩⟩
    · obtain ⟨⟨below, inside⟩, hbelow, heq⟩ := List.mem_map.mp hinside
      obtain ⟨rfl, rfl⟩ := Prod.mk.inj heq
      exact ⟨name, child, below, hchild, rfl, .inr hbelow⟩
  · rintro ⟨name, child, below, hchild, rfl, hbelow⟩
    refine ⟨(name, child), hchild, ?_⟩
    rcases hbelow with ⟨rfl, rfl⟩ | hinside
    · exact List.mem_cons_self
    · exact List.mem_cons_of_mem _ (List.mem_map.mpr ⟨(below, entry), hinside, rfl⟩)

/-- A walk meets what names lead to. -/
theorem Proper.mem_walk_iff (htree : tree.Proper) :
    (names, entry) ∈ tree.walk ↔ names ≠ [] ∧ tree.descend? names = some entry := by
  induction htree generalizing names with
  | file content =>
      cases names with
      | nil => simp [walk]
      | cons name names => simp [walk, descend?, entries]
  | @directory entries hnodup hnames hinside ih =>
      cases names with
      | nil => simp [walk, mem_walkEntries]
      | cons name names =>
          have hbelow : ∀ child, (name, child) ∈ entries →
              ((names = [] ∧ entry = child ∨ (names, entry) ∈ child.walk) ↔
                child.descend? names = some entry) := by
            intro child hmem
            rw [ih _ hmem]
            cases names with
            | nil => simp [descend?, eq_comm]
            | cons next names => simp
          rw [walk, mem_walkEntries, descend?, Option.bind_eq_some_iff]
          constructor
          · rintro ⟨other, child, below, hchild, heq, hmem⟩
            obtain ⟨rfl, rfl⟩ := List.cons.inj heq
            exact ⟨List.cons_ne_nil _ _, child, (Ordered.lookup_eq_some_iff_mem hnodup).mpr hchild,
              (hbelow child hchild).mp hmem⟩
          · rintro ⟨-, child, hlookup, hentry⟩
            have hchild := (Ordered.lookup_eq_some_iff_mem hnodup).mp hlookup
            exact ⟨name, child, names, hchild, rfl, (hbelow child hchild).mpr hentry⟩

theorem follow_of_descend? (above : List FileTree) (hnames : ∀ name ∈ names, DiskPath.IsName name)
    (h : tree.descend? names = some entry) : follow above tree names = .ok entry := by
  induction names generalizing tree above with
  | nil => exact congrArg Except.ok (Option.some.inj h)
  | cons name names ih =>
      rw [descend?, Option.bind_eq_some_iff] at h
      obtain ⟨child, hchild, hentry⟩ := h
      obtain ⟨hname, hrest⟩ := List.forall_mem_cons.mp hnames
      have hdirectory : tree.isDirectory = true := by
        cases tree with
        | file content => cases hchild
        | directory entries => rfl
      have hbelow := ih (tree :: above) hrest hentry
      simp [follow, hdirectory, hname.ne_empty, hname.ne_current, hname.ne_parent, hchild, hbelow]

theorem resolve_intercalate (hne : names ≠ []) (hnames : ∀ name ∈ names, DiskPath.IsName name)
    (h : tree.descend? names = some entry) :
    tree.resolve (String.intercalate "/" names) = .ok entry := by
  rw [resolve]
  split
  · next hempty =>
      exact absurd (String.toList_inj.mp hempty) (DiskPath.intercalate_ne_empty hne hnames)
  · next rest hrest => exact absurd hrest (DiskPath.toList_intercalate_ne_slash hnames)
  · rw [DiskPath.components_intercalate hne hnames]
    exact follow_of_descend? [] hnames h

/-- There is a file of a path, at the end of the names that it is made of. -/
def HoldsFile (tree : FileTree) (path : String) (content : Bytes) : Prop :=
  ∃ names, names ≠ [] ∧ tree.descend? names = some (.file content) ∧
    path = String.intercalate "/" names

/-- There is a directory of a listed path, which has a slash after the names. -/
def HoldsDirectory (tree : FileTree) (path : String) : Prop :=
  ∃ names entries, names ≠ [] ∧ tree.descend? names = some (.directory entries) ∧
    path = String.intercalate "/" names ++ "/"

section Holds

variable {path : String} {content other : Bytes}

theorem HoldsFile.resolve (htree : tree.Proper) (h : tree.HoldsFile path content) :
    tree.resolve path = .ok (.file content) := by
  obtain ⟨names, hne, hentry, rfl⟩ := h
  exact resolve_intercalate hne (htree.isName_of_descend? hentry) hentry

theorem HoldsFile.unique (htree : tree.Proper) (h : tree.HoldsFile path content)
    (hother : tree.HoldsFile path other) : content = other := by
  have hsame := (h.resolve htree).symm.trans (hother.resolve htree)
  cases hsame
  rfl

theorem HoldsFile.not_endsWith (htree : tree.Proper) (h : tree.HoldsFile path content) :
    Text.endsWith ['/'] path.toList = false := by
  obtain ⟨names, -, hentry, rfl⟩ := h
  exact DiskPath.not_endsWith_intercalate (htree.isName_of_descend? hentry)

theorem HoldsDirectory.endsWith (h : tree.HoldsDirectory path) :
    Text.endsWith ['/'] path.toList = true := by
  obtain ⟨names, entries, -, -, rfl⟩ := h
  rw [String.toList_append, Text.endsWith_iff_suffix]
  exact List.suffix_append _ _

/-- A listing has the paths of the files and directories of the tree. -/
theorem mem_entries (htree : tree.Proper) : path ∈ (DirectoryPackage.ofTree tree).entries ↔
    (∃ content, tree.HoldsFile path content) ∨ tree.HoldsDirectory path := by
  rw [DirectoryPackage.ofTree, Ordered.mem_ofList, List.mem_map]
  constructor
  · rintro ⟨⟨names, entry⟩, hmem, rfl⟩
    obtain ⟨hne, hentry⟩ := htree.mem_walk_iff.mp hmem
    cases entry with
    | file content => exact .inl ⟨content, names, hne, hentry, String.append_empty⟩
    | directory entries => exact .inr ⟨names, entries, hne, hentry, rfl⟩
  · rintro (⟨content, names, hne, hentry, rfl⟩ | ⟨names, entries, hne, hentry, rfl⟩)
    · exact ⟨(names, .file content), htree.mem_walk_iff.mpr ⟨hne, hentry⟩, String.append_empty⟩
    · exact ⟨(names, .directory entries), htree.mem_walk_iff.mpr ⟨hne, hentry⟩, rfl⟩

end Holds

end FileTree
end ExtensionLint
