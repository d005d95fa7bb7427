import ExtensionLint.Proofs.FileTree
import ExtensionLint.Proofs.PackageBuild
import Mathlib.Data.List.Perm.Basic

/-!
The two ways to store a package. A package built up in memory from the files and directories of a
tree, in any order, is the package that the tree holds on disk: both list the same paths and answer
every question alike, however it is spelled. The disk is only ever asked for a file at the end of
names of the tree, so no path reads anything outside.
-/

namespace ExtensionLint

namespace MemoryPackage.Addition

/-- The addition of what names lead to. -/
def along (names : List String) : FileTree → Addition
  | .file content => file (String.intercalate "/" names) content
  | .directory _ => directory (String.intercalate "/" names)

theorem directories_directory {names : List String}
    (hnames : ∀ name ∈ names, DiskPath.IsName name) :
    (directory (String.intercalate "/" names)).directories
      = [String.intercalate "/" names ++ "/"] := by
  rw [directories, DiskPath.normalize_intercalate hnames,
    PackagePath.dropTrailing_eq_self (DiskPath.not_endsWith_intercalate hnames),
    String.ofList_append, String.ofList_toList]

end MemoryPackage.Addition

namespace FileTree

variable {tree : FileTree} {additions : List MemoryPackage.Addition}

/-- Holds of additions of just the files and directories of a tree, in any order. -/
def AddedBy (tree : FileTree) (additions : List MemoryPackage.Addition) : Prop :=
  ∀ addition, addition ∈ additions ↔
    ∃ names entry, names ≠ [] ∧ tree.descend? names = some entry ∧ addition = .along names entry

theorem Proper.addedBy_of_perm (htree : tree.Proper)
    (h : additions.Perm (tree.walk.map fun (names, entry) => .along names entry)) :
    tree.AddedBy additions := by
  intro addition
  rw [h.mem_iff, List.mem_map]
  constructor
  · rintro ⟨⟨names, entry⟩, hmem, rfl⟩
    obtain ⟨hne, hentry⟩ := htree.mem_walk_iff.mp hmem
    exact ⟨names, entry, hne, hentry, rfl⟩
  · rintro ⟨names, entry, hne, hentry, rfl⟩
    exact ⟨(names, entry), htree.mem_walk_iff.mpr ⟨hne, hentry⟩, rfl⟩

section AddedBy

variable (hadded : tree.AddedBy additions) (htree : tree.Proper) {path : String}
include hadded htree

theorem AddedBy.mem_files {content : Bytes} :
    (path, content) ∈ additions.filterMap MemoryPackage.Addition.file? ↔
      tree.HoldsFile path content := by
  rw [List.mem_filterMap]
  constructor
  · rintro ⟨addition, hmem, hfile⟩
    obtain ⟨names, entry, hne, hentry, rfl⟩ := (hadded addition).mp hmem
    cases entry with
    | directory entries => cases hfile
    | file content =>
        cases hfile
        exact ⟨names, hne, hentry,
          DiskPath.normalize_intercalate (htree.isName_of_descend? hentry)⟩
  · rintro ⟨names, hne, hentry, rfl⟩
    refine ⟨_, (hadded _).mpr ⟨names, _, hne, hentry, rfl⟩, ?_⟩
    rw [MemoryPackage.Addition.along, MemoryPackage.Addition.file?,
      DiskPath.normalize_intercalate (htree.isName_of_descend? hentry)]

theorem AddedBy.lookup_files {content : Bytes} :
    (MemoryPackage.build additions).files.lookup path = some content ↔
      tree.HoldsFile path content := by
  rw [MemoryPackage.lookup_files_build, hadded.mem_files htree]
  intro path first second hfirst hsecond
  exact ((hadded.mem_files htree).mp hfirst).unique htree ((hadded.mem_files htree).mp hsecond)

/-- The directories of a package built from a tree are those of the tree. Those on the way of a file
are among them. -/
theorem AddedBy.mem_directories :
    path ∈ (MemoryPackage.build additions).directories ↔ tree.HoldsDirectory path := by
  rw [MemoryPackage.mem_directories_build]
  constructor
  · rintro ⟨addition, hmem, hpath⟩
    obtain ⟨names, entry, hne, hentry, rfl⟩ := (hadded addition).mp hmem
    have hnames := htree.isName_of_descend? hentry
    cases entry with
    | file content =>
        simp only [MemoryPackage.Addition.along, MemoryPackage.Addition.directories,
          DiskPath.normalize_intercalate hnames] at hpath
        obtain ⟨parent, hparent, rfl⟩ := List.mem_map.mp hpath
        obtain ⟨front, rest, hslash, rfl⟩ := PackagePath.mem_parents.mp hparent
        obtain ⟨before, after, hbefore, hafter, rfl, rfl, -⟩ :=
          DiskPath.exists_of_toList_intercalate hnames hslash
        obtain ⟨entries, hentries⟩ := exists_directory_of_descend? hafter hentry
        refine ⟨before, entries, hbefore, hentries, ?_⟩
        rw [String.ofList_append, String.ofList_toList]
    | directory entries =>
        rw [MemoryPackage.Addition.along,
          MemoryPackage.Addition.directories_directory hnames] at hpath
        exact ⟨names, entries, hne, hentry, List.mem_singleton.mp hpath⟩
  · rintro ⟨names, entries, hne, hentry, rfl⟩
    refine ⟨_, (hadded _).mpr ⟨names, _, hne, hentry, rfl⟩, ?_⟩
    rw [MemoryPackage.Addition.along,
      MemoryPackage.Addition.directories_directory (htree.isName_of_descend? hentry)]
    exact List.mem_singleton_self _

end AddedBy

/-- A path is opened if it is that of a file, so it goes down along names of the tree. -/
theorem opened?_eq_some_iff (htree : tree.Proper) {query path : String} :
    (DirectoryPackage.ofTree tree).opened? query = some path ↔
      PackagePath.normalize query = path ∧ ∃ content, tree.HoldsFile path content := by
  simp only [DirectoryPackage.opened?, Option.ite_none_left_eq_some, Bool.or_eq_true, not_or,
    Bool.not_eq_true', Bool.not_eq_false, Bool.not_eq_true, List.contains_iff_mem,
    Option.some.injEq]
  constructor
  · rintro ⟨⟨hlisted, hends⟩, rfl⟩
    refine ⟨rfl, ?_⟩
    rcases (mem_entries htree).mp hlisted with hfile | hdirectory
    · exact hfile
    · rw [hdirectory.endsWith] at hends
      cases hends
  · rintro ⟨rfl, content, hfile⟩
    exact ⟨⟨(mem_entries htree).mpr (.inl ⟨content, hfile⟩), hfile.not_endsWith htree⟩, rfl⟩

/-- What is read is what names of the tree lead to. -/
theorem content?_ofTree_eq_some_iff (htree : tree.Proper) {query : String} {content : Bytes} :
    (DirectoryPackage.ofTree tree).content? query = some content ↔
      tree.HoldsFile (PackagePath.normalize query) content := by
  rw [DirectoryPackage.content?, Option.bind_eq_some_iff]
  constructor
  · rintro ⟨path, hopened, hcontent⟩
    obtain ⟨rfl, held, hfile⟩ := (opened?_eq_some_iff htree).mp hopened
    simp only [DirectoryPackage.ofTree, hfile.resolve htree, Option.some.injEq] at hcontent
    exact hcontent ▸ hfile
  · intro hfile
    refine ⟨_, (opened?_eq_some_iff htree).mpr ⟨rfl, content, hfile⟩, ?_⟩
    simp only [DirectoryPackage.ofTree, hfile.resolve htree]

section Agreement

variable (htree : tree.Proper) (hadded : tree.AddedBy additions)
include htree hadded

theorem mem_entries_iff_build {path : String} :
    path ∈ (DirectoryPackage.ofTree tree).entries ↔
      path ∈ (MemoryPackage.build additions).files.map Prod.fst ∨
        path ∈ (MemoryPackage.build additions).directories := by
  rw [mem_entries htree, Ordered.mem_keys_iff, hadded.mem_directories htree]
  simp only [hadded.lookup_files htree]

/-- No file has the listed path of a directory. -/
theorem nodup_listed_build : ((MemoryPackage.build additions).files.map Prod.fst
    ++ (MemoryPackage.build additions).directories).Nodup := by
  have hascending := MemoryPackage.ascending_build additions
  refine List.nodup_append.mpr ⟨?_, hascending.directories.imp ne_of_lt, ?_⟩
  · exact List.pairwise_map.mpr (hascending.files.imp ne_of_lt)
  · intro path hpath directory hdirectory heq
    obtain ⟨content, hlookup⟩ := Ordered.mem_keys_iff.mp hpath
    have hfile := ((hadded.lookup_files htree).mp hlookup).not_endsWith htree
    rw [heq, ((hadded.mem_directories htree).mp hdirectory).endsWith] at hfile
    cases hfile

theorem paths_eq_build :
    tree.toPackage.paths = (MemoryPackage.build additions).toPackage.paths := by
  have hlisted : (DirectoryPackage.ofTree tree).entries.Pairwise (· < ·) :=
    Ordered.pairwise_ofList _
  have hperm : (DirectoryPackage.ofTree tree).entries.Perm
      ((MemoryPackage.build additions).files.map Prod.fst
        ++ (MemoryPackage.build additions).directories) := by
    rw [List.perm_ext_iff_of_nodup (hlisted.imp ne_of_lt) (nodup_listed_build htree hadded)]
    intro path
    rw [List.mem_append]
    exact mem_entries_iff_build htree hadded
  exact List.Perm.eq_of_pairwise (fun a b _ _ => le_antisymm) (hlisted.imp le_of_lt)
    (MemoryPackage.pairwise_paths _) (hperm.trans (List.mergeSort_perm _ _).symm)

theorem has_eq_build (query : String) :
    tree.toPackage.has query = (MemoryPackage.build additions).toPackage.has query := by
  have hlisted : tree.toPackage.has query = true ↔
      PackagePath.normalize query ∈ (DirectoryPackage.ofTree tree).entries := List.contains_iff_mem
  have hbuilt : (MemoryPackage.build additions).toPackage.has query = true ↔
      PackagePath.normalize query ∈ (MemoryPackage.build additions).files.map Prod.fst ∨
        PackagePath.normalize query ∈ (MemoryPackage.build additions).directories := by
    rw [Ordered.mem_keys_iff, ← Option.isSome_iff_exists, ← List.contains_iff_mem]
    exact Bool.or_eq_true_iff
  rw [Bool.eq_iff_iff, hlisted, hbuilt]
  exact mem_entries_iff_build htree hadded

theorem content?_eq_build (query : String) :
    tree.toPackage.content? query = (MemoryPackage.build additions).toPackage.content? query := by
  ext content
  exact (content?_ofTree_eq_some_iff htree).trans (hadded.lookup_files htree).symm

theorem toPackage_eq_build : tree.toPackage = (MemoryPackage.build additions).toPackage := by
  have hhas := funext (has_eq_build htree hadded)
  have hcontent := funext (content?_eq_build htree hadded)
  rw [Package.mk.injEq]
  exact ⟨paths_eq_build htree hadded, hhas, hcontent⟩

end Agreement

/-- A package listed from a tree and one built from the same files and directories have the same
paths and answer every query alike, whatever its spelling. The one on disk opens a file only at the
end of names of the tree, and reads what is there. -/
theorem toPackage_agrees_build (htree : tree.Proper) (hadded : tree.AddedBy additions) :
    let listed := tree.toPackage
    let built := (MemoryPackage.build additions).toPackage
    listed.paths = built.paths ∧
    (∀ query, listed.has query = built.has query ∧ listed.read query = built.read query ∧
      listed.readText query = built.readText query) ∧
    ∀ query path, (DirectoryPackage.ofTree tree).opened? query = some path →
      ∃ names content, names ≠ [] ∧ (∀ name ∈ names, DiskPath.IsName name) ∧
        path = String.intercalate "/" names ∧ tree.descend? names = some (.file content) ∧
        listed.read query = .ok content := by
  intro listed built
  have heq : listed = built := toPackage_eq_build htree hadded
  refine ⟨congrArg Package.paths heq, fun query => ?_, fun query path hopened => ?_⟩
  · rw [heq]
    exact ⟨rfl, rfl, rfl⟩
  · obtain ⟨rfl, content, hfile⟩ := (opened?_eq_some_iff htree).mp hopened
    have hcontent : listed.content? query = some content :=
      (content?_ofTree_eq_some_iff htree).mpr hfile
    obtain ⟨names, hne, hentry, hpath⟩ := hfile
    refine ⟨names, content, hne, htree.isName_of_descend? hentry, hpath, hentry, ?_⟩
    rw [Package.read, hcontent]

theorem toPackage_agrees_build_icons :
    let content : Bytes := [0xEF, 0xBB, 0xBF, 0x7B, 0x7D]
    let tree : FileTree := .directory
      [("icons", .directory [("16.png", .file [0x89])]), ("manifest.json", .file content)]
    let additions : List MemoryPackage.Addition :=
      [.file "manifest.json" content, .file "icons/16.png" [0x89], .directory "icons"]
    let listed := tree.toPackage
    let built := (MemoryPackage.build additions).toPackage
    tree.Proper ∧ tree.AddedBy additions ∧
    listed.paths = built.paths ∧
    (∀ query, listed.has query = built.has query ∧ listed.read query = built.read query ∧
      listed.readText query = built.readText query) ∧
    (∀ query path, (DirectoryPackage.ofTree tree).opened? query = some path →
      ∃ names content, names ≠ [] ∧ (∀ name ∈ names, DiskPath.IsName name) ∧
        path = String.intercalate "/" names ∧ tree.descend? names = some (.file content) ∧
        listed.read query = .ok content) ∧
    listed.paths = ["icons/", "icons/16.png", "manifest.json"] ∧
    listed.readText ".\\manifest.json" = .ok "\x7b\x7d" ∧
    listed.read "icons/../manifest.json" = .error (.notFound "icons/../manifest.json") := by
  intro content tree additions listed built
  have hicons : (directory [("16.png", .file [0x89])]).Proper :=
    .directory (by decide) (by decide) (List.forall_mem_singleton.mpr (.file _))
  have htree : tree.Proper :=
    .directory (by decide) (by decide)
      (List.forall_mem_cons.mpr ⟨hicons, List.forall_mem_singleton.mpr (.file content)⟩)
  have hadded : tree.AddedBy additions := htree.addedBy_of_perm (by decide)
  obtain ⟨hpaths, hqueries, hopened⟩ := toPackage_agrees_build htree hadded
  refine ⟨htree, hadded, hpaths, hqueries, hopened, ?_, ?_, ?_⟩
  · decide +kernel
  · decide +kernel
  · decide +kernel

end FileTree

end ExtensionLint
