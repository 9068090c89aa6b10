import ElvishOutline.Scan
import ElvishOutline.Proofs.ByteOrder
import ElvishOutline.Proofs.Filters
import ElvishOutline.Proofs.Places
import Mathlib.Data.List.Infix
import Mathlib.Data.String.Basic

/-!
# The walk of a scan and the files that it is to find

A scan leaves out the directories that its filter passes over, with all that is in them, and tests
the files that it comes to. In a tree without links this gives the files that pass the tests and lie
in no directory, below the root, that is passed over: each once, and in the order of the bytes of
their names from the root down.

`IsSelected` states what is to be found without a walk. One directory is a step of it
(`isSelected_directory_iff`), as it is of the walk, and the walk gives what is selected by induction
over the tree.
-/

namespace ElvishOutline

/-- A tree without links whose directories have entries under names of their own. -/
inductive Node.IsPlain : Node → Prop
  | file (content : ByteArray) : IsPlain (.file content)
  | directory {entries : List (String × Node)} (hdistinct : (entries.map Prod.fst).Nodup)
      (hnames : ∀ entry ∈ entries, Path.isSilent entry.1 = false)
      (hentries : ∀ entry ∈ entries, IsPlain entry.2) : IsPlain (.directory entries)

namespace FileSystem

/-- A walk that follows links sees a tree without links as one does that takes them as leaves. -/
theorem followedTrees_eq {fs : FileSystem} {entries : List (String × Node)}
    (h : ∀ entry ∈ entries, ∀ outside here,
      fs.followedTree? outside here entry.2 = some entry.2.tree)
    (outside : List (List String)) (here : List String) :
    fs.followedTrees outside here entries = Node.trees entries := by
  induction entries with
  | nil => rw [followedTrees, Node.trees]
  | cons entry rest ih =>
    obtain ⟨name, node⟩ := entry
    obtain ⟨hentry, hrest⟩ := List.forall_mem_cons.mp h
    rw [followedTrees, hentry outside (here ++ [name]), Node.trees]
    simp only [ih hrest]

/-- Followed or not, a tree without links is seen as it is. -/
theorem followedTree?_eq {fs : FileSystem} {node : Node} (h : node.IsPlain)
    (outside : List (List String)) (here : List String) :
    fs.followedTree? outside here node = some node.tree := by
  induction h generalizing outside here with
  | file content => rw [followedTree?, Node.tree]
  | directory hdistinct hnames hentries ih =>
    rw [followedTree?, Node.tree, followedTrees_eq ih]

/-- A walk sees the entries of a directory without links in the order of their names. -/
theorem walkEntries_eq {fs : FileSystem} {entries : List (String × Node)}
    (h : (Node.directory entries).IsPlain) (followLinks : Bool) (place : List String) :
    fs.walkEntries followLinks place entries = Tree.sorted (Node.trees entries) := by
  cases h with
  | directory hdistinct hnames hentries =>
    rw [walkEntries, followedTrees_eq fun entry hentry => followedTree?_eq (hentries entry hentry)]
    split <;> rfl

end FileSystem

section Root

variable {fs : FileSystem} {settings : ScanSettings} {filter : PathFilter} {place : List String}
  {node : Node}

/-- A scan has a filter if its settings pass the check and make one. -/
theorem prepare_eq_ok_iff :
    Scan.prepare fs settings = .ok filter ↔
      settings.check fs = .ok () ∧ PathFilter.ofSettings fs settings = .ok filter := by
  rw [Scan.prepare]
  cases hcheck : settings.check fs with
  | error e => simp [bind, Except.bind, Except.mapError]
  | ok checked =>
    cases PathFilter.ofSettings fs settings with
    | error e => simp [bind, Except.bind, Except.mapError]
    | ok found => simp [bind, Except.bind, Except.mapError]

/-- A scan never passes over its root. -/
theorem ignores_root (hprepare : Scan.prepare fs settings = .ok filter) (isDirectory : Bool) :
    filter.ignores settings.root isDirectory = false := by
  obtain ⟨-, hfilter⟩ := prepare_eq_ok_iff.mp hprepare
  rw [PathFilter.ignores, PathFilter.root_of_ofSettings hfilter, Path.same]
  simp

/-- The scripts of a scan are those of the tree at its root, which is entered or tested itself. -/
theorem findScripts_eq_scripts (hprepare : Scan.prepare fs settings = .ok filter)
    (hplace : fs.place .kept settings.root = .ok place) (hnode : fs.node? place = some node)
    (hplain : node.IsPlain) :
    findScripts fs settings filter =
      node.tree.scripts filter settings.maxFileSize settings.root := by
  cases hplain with
  | file content =>
    have hstart : fs.walkStart settings.followLinks settings.root = ⟨some content.size, []⟩ := by
      rw [FileSystem.walkStart, hplace]
      simp only [Except.toOption, Option.bind_some, hnode]
    rw [findScripts, hstart, Node.tree, Tree.scripts]
    simp only [Option.filter_some, Tree.entryScripts, List.append_nil]
    split <;> rfl
  | @directory entries hdistinct hnames hentries =>
    have hfollowed : fs.place .followed settings.root = .ok place :=
      FileSystem.place_followed_of_kept hplace (by simp [hnode])
    have hstart : fs.walkStart settings.followLinks settings.root =
        ⟨none, Tree.sorted (Node.trees entries)⟩ := by
      rw [FileSystem.walkStart, hplace, hfollowed]
      simp only [Except.toOption, Option.bind_some, hnode,
        FileSystem.walkEntries_eq (.directory hdistinct hnames hentries)]
    rw [findScripts, hstart, Node.tree, Tree.scripts, ignores_root hprepare,
      if_neg Bool.false_ne_true]
    rfl

end Root

/-- A file is selected if it is a script by its name, is not ignored and is not too large. -/
theorem PathFilter.selects_iff {filter : PathFilter} {maxFileSize size : Nat} {path : Path} :
    filter.selects maxFileSize path size = true ↔
      path.isScript = true ∧ filter.ignores path false = false ∧ size ≤ maxFileSize := by
  simp [PathFilter.selects, and_assoc]

/-- A file that names lead to from a node at a path: it passes the tests of a scan, and no directory on
the way, from the node on, is passed over. -/
structure IsSelected (filter : PathFilter) (maxFileSize : Nat) (path : Path) (node : Node)
    (names : List String) : Prop where
  file : ∃ content, node.descend? names = some (.file content) ∧
    filter.selects maxFileSize (path.joins names) content.size = true
  entered : ∀ above, above <+: names → above ≠ names → filter.ignores (path.joins above) true = false

/-- A file that is selected from one of the entries of a directory at a path. -/
def IsSelectedAmong (filter : PathFilter) (maxFileSize : Nat) (path : Path)
    (entries : List (String × Node)) (names : List String) : Prop :=
  ∃ entry ∈ entries, ∃ rest, names = entry.1 :: rest ∧
    IsSelected filter maxFileSize (path.join entry.1) entry.2 rest

/-- Paths below a path, given by lists of names with some property, each once and in order. -/
def ListsInOrder (path : Path) (P : List String → Prop) (paths : List Path) : Prop :=
  ∃ found : List (List String), paths = found.map path.joins ∧ found.Pairwise (· < ·) ∧
    ∀ names, names ∈ found ↔ P names

section Walk

variable {filter : PathFilter} {maxFileSize : Nat} {path : Path}

/-- A file is selected by itself. -/
theorem isSelected_file_iff {content : ByteArray} {names : List String} :
    IsSelected filter maxFileSize path (.file content) names ↔
      names = [] ∧ filter.selects maxFileSize path content.size = true := by
  constructor
  · rintro ⟨⟨found, hfile, hselects⟩, -⟩
    cases names with
    | nil =>
      obtain rfl : content = found := by simpa [Node.descend?] using hfile
      exact ⟨rfl, hselects⟩
    | cons name rest => cases hfile
  · rintro ⟨rfl, hselects⟩
    refine ⟨⟨content, rfl, hselects⟩, ?_⟩
    intro above habove hne
    exact absurd (List.prefix_nil.mp habove) hne

/-- Entries with names of their own are found by their names. -/
theorem lookup_eq_some_iff_mem {entries : List (String × Node)}
    (hdistinct : (entries.map Prod.fst).Nodup) {name : String} {child : Node} :
    entries.lookup name = some child ↔ (name, child) ∈ entries := by
  rw [List.lookup_eq_some_iff]
  constructor
  · rintro ⟨before, after, rfl, -⟩
    exact List.mem_append_right _ List.mem_cons_self
  · intro hmem
    obtain ⟨before, after, rfl⟩ := List.append_of_mem hmem
    refine ⟨before, after, rfl, ?_⟩
    intro entry hentry
    rw [List.map_append, List.nodup_append] at hdistinct
    have hne := hdistinct.2.2 entry.1 (List.mem_map_of_mem hentry) name
      (List.mem_map.mpr ⟨_, List.mem_cons_self, rfl⟩)
    simpa using hne.symm

/-- A file below a directory is selected if the directory is not passed over and the file is selected
from the entry that it is in. -/
theorem isSelected_directory_iff {entries : List (String × Node)} {names : List String}
    (hdistinct : (entries.map Prod.fst).Nodup) :
    IsSelected filter maxFileSize path (.directory entries) names ↔
      filter.ignores path true = false ∧
        IsSelectedAmong filter maxFileSize path entries names := by
  constructor
  · rintro ⟨⟨content, hfile, hselects⟩, hentered⟩
    cases names with
    | nil => cases hfile
    | cons name rest =>
      obtain ⟨child, hchild, hrest⟩ := Option.bind_eq_some_iff.mp hfile
      refine ⟨hentered [] List.nil_prefix (List.cons_ne_nil _ _).symm, (name, child),
        (lookup_eq_some_iff_mem hdistinct).mp hchild, rest, rfl, ⟨content, hrest, hselects⟩, ?_⟩
      intro above habove hne
      exact hentered (name :: above) (List.cons_prefix_cons.mpr ⟨rfl, habove⟩) (by simpa using hne)
  · rintro ⟨hpath, ⟨name, child⟩, hmem, rest, rfl, ⟨content, hrest, hselects⟩, hentered⟩
    have hchild := (lookup_eq_some_iff_mem hdistinct).mpr hmem
    refine ⟨⟨content, Option.bind_eq_some_iff.mpr ⟨child, hchild, hrest⟩, hselects⟩, ?_⟩
    intro above habove hne
    cases above with
    | nil => exact hpath
    | cons first above =>
      obtain ⟨rfl, hbelow⟩ := List.cons_prefix_cons.mp habove
      exact hentered above hbelow (by simpa using hne)

/-- The entries of a directory in the order of their names. -/
def sortedEntries (entries : List (String × Node)) : List (String × Node) :=
  entries.mergeSort fun a b => a.1 ≤ b.1

/-- Sorting keeps the entries. -/
theorem mem_sortedEntries {entries : List (String × Node)} {entry : String × Node} :
    entry ∈ sortedEntries entries ↔ entry ∈ entries :=
  (List.mergeSort_perm entries _).mem_iff

/-- A walk sees the entries in their order. -/
theorem sorted_trees (entries : List (String × Node)) :
    Tree.sorted (Node.trees entries) = (sortedEntries entries).map fun e => (e.1, e.2.tree) := by
  have htrees : Node.trees entries = entries.map fun e => (e.1, e.2.tree) := by
    induction entries with
    | nil => rfl
    | cons entry rest ih => rw [Node.trees, ih, List.map_cons]
  rw [Tree.sorted, htrees, sortedEntries, List.map_mergeSort]
  intro a _ b _
  rfl

/-- Entries with names of their own are strictly ordered by them. -/
theorem pairwise_sortedEntries {entries : List (String × Node)}
    (hdistinct : (entries.map Prod.fst).Nodup) :
    (sortedEntries entries).Pairwise fun a b => a.1 < b.1 := by
  have hle : (sortedEntries entries).Pairwise fun a b => a.1 ≤ b.1 := by
    refine (List.pairwise_mergeSort ?_ ?_ entries).imp of_decide_eq_true
    · intro a b c hab hbc
      exact decide_eq_true (le_trans (of_decide_eq_true hab) (of_decide_eq_true hbc))
    · intro a b
      simpa using le_total a.1 b.1
  have hne : (sortedEntries entries).Pairwise fun a b => a.1 ≠ b.1 := by
    have hperm := (List.mergeSort_perm entries fun a b => a.1 ≤ b.1).map Prod.fst
    exact List.pairwise_map.mp (hperm.nodup_iff.mpr hdistinct)
  exact (hle.and hne).imp fun h => lt_of_le_of_ne h.1 h.2

/-- The scripts among ordered entries come in order, if those of each entry do. -/
theorem listsInOrder_entryScripts (path : Path) {entries : List (String × Node)}
    (hsorted : entries.Pairwise fun a b => a.1 < b.1)
    (hentries : ∀ entry ∈ entries, ∀ path,
      ListsInOrder path (IsSelected filter maxFileSize path entry.2)
        (entry.2.tree.scripts filter maxFileSize path)) :
    ListsInOrder path (IsSelectedAmong filter maxFileSize path entries)
      (Tree.entryScripts filter maxFileSize path (entries.map fun e => (e.1, e.2.tree))) := by
  induction entries with
  | nil =>
    refine ⟨[], rfl, .nil, ?_⟩
    intro names
    simp [IsSelectedAmong]
  | cons entry entries ih =>
    obtain ⟨hfirst, hrest⟩ := List.pairwise_cons.mp hsorted
    obtain ⟨hentry, hlater⟩ := List.forall_mem_cons.mp hentries
    obtain ⟨found, hpaths, horder, hfound⟩ := hentry (path.join entry.1)
    obtain ⟨others, hothersPaths, hothersOrder, hothers⟩ := ih hrest hlater
    refine ⟨found.map (entry.1 :: ·) ++ others, ?_, ?_, ?_⟩
    · rw [List.map_cons, Tree.entryScripts, hpaths, hothersPaths, List.map_append, List.map_map]
      rfl
    · refine List.pairwise_append.mpr ⟨?_, hothersOrder, ?_⟩
      · refine List.pairwise_map.mpr (horder.imp ?_)
        intro names names' hlt
        exact List.cons_lt_cons_iff.mpr (.inr ⟨rfl, hlt⟩)
      · -- What is found in a later entry starts with a later name.
        intro names hnames names' hnames'
        obtain ⟨rest, -, rfl⟩ := List.mem_map.mp hnames
        obtain ⟨other, hother, rest', rfl, -⟩ := (hothers names').mp hnames'
        exact List.cons_lt_cons_iff.mpr (.inl (hfirst other hother))
    · intro names
      rw [List.mem_append, List.mem_map, hothers, IsSelectedAmong, IsSelectedAmong,
        List.exists_mem_cons_iff]
      refine or_congr_left (exists_congr fun rest => ?_)
      rw [hfound, and_comm, eq_comm]

/-- The scripts of a tree without links are the selected files, in order. -/
theorem listsInOrder_scripts (filter : PathFilter) (maxFileSize : Nat) {node : Node}
    (h : node.IsPlain) (path : Path) :
    ListsInOrder path (IsSelected filter maxFileSize path node)
      (node.tree.scripts filter maxFileSize path) := by
  induction h generalizing path with
  | file content =>
    rw [Node.tree, Tree.scripts]
    by_cases hselects : filter.selects maxFileSize path content.size = true
    · rw [if_pos hselects]
      refine ⟨[[]], rfl, List.pairwise_singleton _ _, ?_⟩
      intro names
      rw [isSelected_file_iff, List.mem_singleton, and_iff_left hselects]
    · rw [if_neg hselects]
      refine ⟨[], rfl, .nil, ?_⟩
      intro names
      rw [isSelected_file_iff, iff_false_left List.not_mem_nil]
      exact fun h => hselects h.2
  | @directory entries hdistinct hnames hentries ih =>
    rw [Node.tree, Tree.scripts, sorted_trees]
    by_cases hignored : filter.ignores path true = true
    · rw [if_pos hignored]
      refine ⟨[], rfl, .nil, ?_⟩
      intro names
      rw [isSelected_directory_iff hdistinct, hignored, iff_false_left List.not_mem_nil]
      exact fun h => Bool.noConfusion h.1
    · rw [if_neg hignored]
      obtain ⟨found, hpaths, horder, hfound⟩ := listsInOrder_entryScripts path
        (pairwise_sortedEntries hdistinct) fun entry hentry => ih entry (mem_sortedEntries.mp hentry)
      refine ⟨found, hpaths, horder, ?_⟩
      intro names
      rw [hfound, isSelected_directory_iff hdistinct, and_iff_right (by simpa using hignored),
        IsSelectedAmong, IsSelectedAmong]
      simp only [mem_sortedEntries]

end Walk

/-- The names that lead to something in a tree without links all say something. -/
theorem Node.IsPlain.isSilent_of_descend? {node found : Node} (h : node.IsPlain)
    {names : List String} (hnames : node.descend? names = some found) :
    ∀ name ∈ names, Path.isSilent name = false := by
  induction h generalizing names with
  | file content =>
    cases names with
    | nil => exact List.forall_mem_nil _
    | cons name rest => cases hnames
  | directory hdistinct hsilent hentries ih =>
    cases names with
    | nil => exact List.forall_mem_nil _
    | cons name rest =>
      obtain ⟨child, hchild, hrest⟩ := Option.bind_eq_some_iff.mp hnames
      have hmem := (lookup_eq_some_iff_mem hdistinct).mp hchild
      exact List.forall_mem_cons.mpr ⟨hsilent _ hmem, ih _ hmem hrest⟩

/-- The bytes of the components of a path as seen from a root. -/
def Path.bytesFrom (p root : Path) : List (List UInt8) :=
  ((p.relativeTo? root).getD p).componentBytes

/-- For every tree without links and all settings that a scan can use, the scripts of the scan are the
files of the tree that have the extension of scripts, are not too large and are not passed over, and
that lie in no directory below the root that is passed over. Each is given once, and they are in the
order of the bytes of their components from the root on. The root itself is never passed over. -/
theorem findScripts_eq_plain_filter {fs : FileSystem} {settings : ScanSettings}
    {filter : PathFilter} {place : List String} {node : Node}
    (hprepare : Scan.prepare fs settings = .ok filter)
    (hplace : fs.place .kept settings.root = .ok place) (hnode : fs.node? place = some node)
    (hplain : node.IsPlain) :
    (∀ path, path ∈ findScripts fs settings filter ↔ ∃ names content,
      path = settings.root.joins names ∧ node.descend? names = some (.file content) ∧
      path.isScript = true ∧ content.size ≤ settings.maxFileSize ∧
      filter.ignores path false = false ∧
      ∀ above, above <+: names → above ≠ [] → above ≠ names →
        filter.ignores (settings.root.joins above) true = false) ∧
    (findScripts fs settings filter).Nodup ∧
    ((findScripts fs settings filter).Pairwise fun p q =>
      p.bytesFrom settings.root < q.bytesFrom settings.root) ∧
    ∀ isDirectory, filter.ignores settings.root isDirectory = false := by
  have hroot := ignores_root hprepare
  obtain ⟨found, hpaths, horder, hfound⟩ :=
    listsInOrder_scripts filter settings.maxFileSize hplain settings.root
  have hbytes : (found.map settings.root.joins).Pairwise fun p q =>
      p.bytesFrom settings.root < q.bytesFrom settings.root := by
    refine List.pairwise_map.mpr (horder.imp_of_mem ?_)
    intro names names' hmem hmem' hlt
    obtain ⟨⟨content, hfile, -⟩, -⟩ := (hfound names).mp hmem
    obtain ⟨⟨content', hfile', -⟩, -⟩ := (hfound names').mp hmem'
    have hnames := hplain.isSilent_of_descend? hfile
    have hnames' := hplain.isSilent_of_descend? hfile'
    have htext := FileSystem.toString_ne_of_place hplace
    rw [Path.bytesFrom, Path.bytesFrom, Path.relativeTo?_joins hnames htext,
      Path.relativeTo?_joins hnames' htext]
    exact Path.componentBytes_build_lt hnames hnames' hlt
  rw [findScripts_eq_scripts hprepare hplace hnode hplain, hpaths]
  refine ⟨?_, hbytes.imp ?_, hbytes, hroot⟩
  · intro path
    rw [List.mem_map]
    constructor
    · rintro ⟨names, hmem, rfl⟩
      obtain ⟨⟨content, hfile, hselects⟩, hentered⟩ := (hfound names).mp hmem
      obtain ⟨hscript, hignored, hsize⟩ := PathFilter.selects_iff.mp hselects
      exact ⟨names, content, rfl, hfile, hscript, hsize, hignored,
        fun above habove _ hne => hentered above habove hne⟩
    · rintro ⟨names, content, rfl, hfile, hscript, hsize, hignored, hentered⟩
      refine ⟨names, (hfound names).mpr ⟨⟨content, hfile, ?_⟩, ?_⟩, rfl⟩
      · exact PathFilter.selects_iff.mpr ⟨hscript, hignored, hsize⟩
      · intro above habove hne
        by_cases hnil : above = []
        · -- No names lead to the root, which is never passed over.
          rw [hnil]
          exact hroot true
        · exact hentered above habove hnil hne
  · rintro p q hlt rfl
    exact List.lt_irrefl _ hlt

/-- A directory beside a script whose name starts with its own, and a hidden one. -/
def likeNamed : Node :=
  .directory [("a.elv", .file .empty), ("a", .directory [("b.ELV", .file .empty)]),
    (".d", .directory [("c.elv", .file .empty)])]

/-- The file system with this directory as its current one. -/
def likeNamedFiles : FileSystem := ⟨[("w", likeNamed)], ["w"]⟩

/-- The filter of a scan of the current directory without ignore files and patterns. -/
def defaultFilter : PathFilter where
  root := ⟨["."]⟩
  rules := none
  customGlobs := []
  defaultGlobs := PathFilter.readDefaults
  includeHidden := false

/-- A directory with one entry is plain if the entry is. -/
theorem Node.IsPlain.singleton {name : String} {node : Node} (hnode : node.IsPlain)
    (hname : Path.isSilent name = false) : (Node.directory [(name, node)]).IsPlain :=
  .directory (List.pairwise_singleton _ name) (List.forall_mem_singleton.mpr hname)
    (List.forall_mem_singleton.mpr hnode)

/-- There are no links in the directory, and no two entries of one name. -/
theorem isPlain_likeNamed : likeNamed.IsPlain := by
  refine .directory (by decide) (by decide) ?_
  simp only [List.forall_mem_cons]
  exact ⟨.file .empty, .singleton (.file .empty) (by decide), .singleton (.file .empty) (by decide),
    List.forall_mem_nil _⟩

/-- The current directory is where the tree is. -/
theorem place_likeNamed : likeNamedFiles.place .kept ⟨["."]⟩ = .ok ["w"] :=
  FileSystem.place_current .kept

/-- A scan of the current directory has a filter without rules if there is no ignore file. -/
theorem prepare_current {fs : FileSystem} (hmissing : fs.node? (fs.current ++ [".gitignore"]) = none)
    (includeHidden : Bool) :
    Scan.prepare fs { root := ⟨["."]⟩, includeHidden } = .ok { defaultFilter with includeHidden } := by
  have hcontains : fs.contains ⟨[".", ".gitignore"]⟩ = false :=
    FileSystem.contains_dot_of_missing (by decide) (by decide) hmissing
  have hrules : PathFilter.rulesOf fs ⟨["."]⟩ none = .ok none := by
    have hjoin : (⟨["."]⟩ : Path).join ".gitignore" = ⟨[".", ".gitignore"]⟩ := by decide
    simp only [PathFilter.rulesOf, hjoin, hcontains]
    rfl
  simp only [Scan.prepare, ScanSettings.check, PathFilter.ofSettings_eq, hrules]
  rfl

/-- There is no ignore file, so a scan of the current directory has the filter without rules. -/
theorem prepare_likeNamed :
    Scan.prepare likeNamedFiles { root := ⟨["."]⟩ } = .ok defaultFilter :=
  prepare_current rfl false

/-- Both scripts with plain names are found in order, and the one in the hidden directory is not. -/
theorem findScripts_likeNamed :
    Scan.prepare likeNamedFiles { root := ⟨["."]⟩ } = .ok defaultFilter ∧
      likeNamedFiles.place .kept ⟨["."]⟩ = .ok ["w"] ∧
      likeNamedFiles.node? ["w"] = some likeNamed ∧ likeNamed.IsPlain ∧
      ⟨[".", "a", "b.ELV"]⟩ ∈ findScripts likeNamedFiles { root := ⟨["."]⟩ } defaultFilter ∧
      ⟨[".", "a.elv"]⟩ ∈ findScripts likeNamedFiles { root := ⟨["."]⟩ } defaultFilter ∧
      ⟨[".", ".d", "c.elv"]⟩ ∉ findScripts likeNamedFiles { root := ⟨["."]⟩ } defaultFilter ∧
      ((findScripts likeNamedFiles { root := ⟨["."]⟩ } defaultFilter).Pairwise fun p q =>
        p.bytesFrom ⟨["."]⟩ < q.bytesFrom ⟨["."]⟩) := by
  obtain ⟨hmem, -, horder, -⟩ :=
    findScripts_eq_plain_filter prepare_likeNamed place_likeNamed rfl isPlain_likeNamed
  refine ⟨prepare_likeNamed, place_likeNamed, rfl, isPlain_likeNamed, ?_, ?_, ?_, horder⟩
  · refine (hmem _).mpr ⟨["a", "b.ELV"], .empty, by decide, rfl, by decide +kernel,
      by decide, by decide +kernel, ?_⟩
    have habove : ∀ above ∈ ["a", "b.ELV"].inits, above ≠ [] → above ≠ ["a", "b.ELV"] →
        defaultFilter.ignores ((⟨["."]⟩ : Path).joins above) true = false := by decide +kernel
    exact fun above h => habove above ((List.mem_inits _ _).mpr h)
  · refine (hmem _).mpr ⟨["a.elv"], .empty, by decide, rfl, by decide +kernel,
      by decide, by decide +kernel, ?_⟩
    have habove : ∀ above ∈ ["a.elv"].inits, above ≠ [] → above ≠ ["a.elv"] →
        defaultFilter.ignores ((⟨["."]⟩ : Path).joins above) true = false := by decide +kernel
    exact fun above h => habove above ((List.mem_inits _ _).mpr h)
  · intro hfound
    obtain ⟨names, content, hpath, hfile, -, -, -, hentered⟩ := (hmem _).mp hfound
    have hne : names ≠ [] := by
      rintro rfl
      cases hfile
    have hsegments := congrArg Path.segments hpath
    rw [Path.segments_joins _ hne (isPlain_likeNamed.isSilent_of_descend? hfile)] at hsegments
    obtain rfl : [".d", "c.elv"] = names := (List.cons_inj_right ".").mp hsegments
    have hhidden : defaultFilter.ignores ((⟨["."]⟩ : Path).joins [".d"]) true = true := by
      decide +kernel
    have hentered' := hentered [".d"] ⟨["c.elv"], rfl⟩ (by decide) (by decide)
    exact Bool.noConfusion (hhidden.symm.trans hentered')

end ElvishOutline
