import ElvishOutline.Proofs.DirectoryPatterns
import ElvishOutline.Proofs.PrunedWalk

/-!
# The components of found paths

The test for hidden files looks at the last name of a path only, and the patterns that are always used
do not match the directories that they are about. Yet a path that a scan finds is free of hidden names
and of these directories as a whole: the directories on the way to it have been tested as well, and the
patterns match all that lies below such a directory, however deep.

`joins_mem_findScripts_iff` puts the tests of a scan together for the names that lead to a file from the
root: every beginning of the names is tested, the whole as a file and the others as directories.
-/

namespace ElvishOutline

namespace Path

/-- A name that an entry of a directory can have: one between slashes, other than that of the parent. -/
def IsEntryName (name : String) : Prop := IsName name ∧ name ≠ ".."

instance (name : String) : Decidable (IsEntryName name) :=
  inferInstanceAs (Decidable (_ ∧ _))

/-- Different names below a directory are different paths. -/
theorem eq_of_joins_eq {p : Path} {names names' : List String}
    (hnames : ∀ name ∈ names, isSilent name = false)
    (hnames' : ∀ name ∈ names', isSilent name = false) (h : p.joins names = p.joins names') :
    names = names' := by
  have hcomponents := congrArg components h
  rw [components_joins hnames, components_joins hnames', List.append_cancel_left_eq] at hcomponents
  have hcomponent : Function.LeftInverse Component.written component := written_component
  exact List.map_injective_iff.mpr hcomponent.injective hcomponents

/-- The components of a relative path that names of entries make are these names. -/
theorem components_build_of_isEntryName {names : List String}
    (hnames : ∀ name ∈ names, IsEntryName name) :
    (build none names).components = names.map .name := by
  rw [components_build_none fun name hname => (hnames name hname).1.notSilent]
  refine List.map_congr_left fun name hname => ?_
  rw [component, if_neg (hnames name hname).2]

end Path

namespace Node

mutual
/-- The names of all entries in a tree. -/
def entryNames : Node → List String
  | .directory entries => listedNames entries
  | _ => []

/-- The names of entries and of all entries below them. -/
def listedNames : List (String × Node) → List String
  | [] => []
  | (name, node) :: rest => name :: (node.entryNames ++ listedNames rest)
end

/-- The names of an entry and of what it holds are among those listed. -/
theorem cons_entryNames_subset {entries : List (String × Node)} {name : String} {child : Node}
    (h : (name, child) ∈ entries) : name :: child.entryNames ⊆ listedNames entries := by
  induction entries with
  | nil => cases h
  | cons entry rest ih =>
    obtain ⟨other, node⟩ := entry
    rw [listedNames]
    rcases List.mem_cons.mp h with heq | hrest
    · obtain ⟨rfl, rfl⟩ := Prod.mk.inj heq
      exact List.cons_subset_cons _ (List.subset_append_left _ _)
    · intro other hother
      exact List.mem_cons_of_mem _ (List.mem_append_right _ (ih hrest hother))

/-- The names that lead to something in a tree are names of its entries. -/
theorem subset_entryNames_of_descend? {node found : Node} {names : List String}
    (h : node.descend? names = some found) : names ⊆ node.entryNames := by
  induction names generalizing node with
  | nil => exact List.nil_subset _
  | cons name rest ih =>
    obtain ⟨child, hchild, hrest⟩ := Option.bind_eq_some_iff.mp h
    cases node with
    | file content => cases hchild
    | link target => cases hchild
    | directory entries =>
      obtain ⟨before, after, rfl, -⟩ := List.lookup_eq_some_iff.mp hchild
      have hmem : (name, child) ∈ before ++ (name, child) :: after :=
        List.mem_append_right _ List.mem_cons_self
      rw [entryNames]
      exact List.Subset.trans (List.cons_subset_cons name (ih hrest)) (cons_entryNames_subset hmem)

end Node

namespace FileSystem

/-- What a path leads to, if to anything, is a tree without links, and its entries have names that
entries can have. -/
def IsPlainAt (fs : FileSystem) (path : Path) : Prop :=
  ∀ place node, fs.place .kept path = .ok place → fs.node? place = some node →
    node.IsPlain ∧ ∀ name ∈ node.entryNames, Path.IsEntryName name

/-- A place below another one is reached through a node there. -/
theorem exists_node_of_append {fs : FileSystem} {place names : List String} {found : Node}
    (h : fs.node? (place ++ names) = some found) :
    ∃ node, fs.node? place = some node ∧ node.descend? names = some found := by
  rw [node?, Node.descend?_append] at h
  exact Option.bind_eq_some_iff.mp h

/-- The names that lead to something below a plain tree are names of entries. -/
theorem IsPlainAt.isEntryName {fs : FileSystem} {path : Path} (h : fs.IsPlainAt path)
    {place names : List String} {found : Node} (hplace : fs.place .kept path = .ok place)
    (hfound : fs.node? (place ++ names) = some found) : ∀ name ∈ names, Path.IsEntryName name := by
  obtain ⟨node, hnode, hnames⟩ := exists_node_of_append hfound
  intro name hname
  exact (h place node hplace hnode).2 name (Node.subset_entryNames_of_descend? hnames hname)

end FileSystem

section Found

variable {fs : FileSystem} {settings : ScanSettings} {filter : PathFilter}

/-- A scan that finds something has something at its root. -/
theorem exists_node_of_mem_findScripts {path : Path} (h : path ∈ findScripts fs settings filter) :
    ∃ place node, fs.place .kept settings.root = .ok place ∧ fs.node? place = some node := by
  cases hnode : (fs.place .kept settings.root).toOption.bind fs.node? with
  | none =>
    have hstart : fs.walkStart settings.followLinks settings.root = ⟨none, []⟩ := by
      rw [FileSystem.walkStart, hnode]
    rw [findScripts, hstart] at h
    cases h
  | some node =>
    obtain ⟨place, hplace, hnode⟩ := Option.bind_eq_some_iff.mp hnode
    cases hkept : fs.place .kept settings.root with
    | error e =>
      rw [hkept] at hplace
      cases hplace
    | ok found =>
      rw [hkept] at hplace
      obtain rfl := Option.some.inj hplace
      exact ⟨found, node, rfl, hnode⟩

variable (hprepare : Scan.prepare fs settings = .ok filter) (hplain : fs.IsPlainAt settings.root)
include hprepare hplain

/-- What a scan finds are files that names lead to from the root. -/
theorem exists_names_of_mem_findScripts {path : Path} (h : path ∈ findScripts fs settings filter) :
    ∃ place names content, fs.place .kept settings.root = .ok place ∧
      fs.node? (place ++ names) = some (.file content) ∧ path = settings.root.joins names := by
  obtain ⟨place, node, hplace, hnode⟩ := exists_node_of_mem_findScripts h
  obtain ⟨hnodePlain, -⟩ := hplain place node hplace hnode
  obtain ⟨found, hpaths, -, hfound⟩ :=
    listsInOrder_scripts filter settings.maxFileSize hnodePlain settings.root
  rw [findScripts_eq_scripts hprepare hplace hnode hnodePlain, hpaths] at h
  obtain ⟨names, hmem, rfl⟩ := List.mem_map.mp h
  obtain ⟨content, hfile, -⟩ := ((hfound names).mp hmem).file
  refine ⟨place, names, content, hplace, ?_, rfl⟩
  rw [FileSystem.node?] at hnode ⊢
  rw [Node.descend?_append, hnode]
  exact hfile

/-- What names lead to is found if it is selected from the tree at the root. -/
theorem joins_mem_findScripts_iff_isSelected {place names : List String} {node found : Node}
    (hplace : fs.place .kept settings.root = .ok place) (hnode : fs.node? place = some node)
    (hnames : node.descend? names = some found) :
    settings.root.joins names ∈ findScripts fs settings filter ↔
      IsSelected filter settings.maxFileSize settings.root node names := by
  obtain ⟨hnodePlain, -⟩ := hplain place node hplace hnode
  obtain ⟨selected, hpaths, -, hselected⟩ :=
    listsInOrder_scripts filter settings.maxFileSize hnodePlain settings.root
  rw [findScripts_eq_scripts hprepare hplace hnode hnodePlain, hpaths, ← hselected names]
  constructor
  · intro h
    obtain ⟨others, hothers, heq⟩ := List.mem_map.mp h
    obtain ⟨_, hother, -⟩ := ((hselected others).mp hothers).file
    rwa [← Path.eq_of_joins_eq (hnodePlain.isSilent_of_descend? hother)
      (hnodePlain.isSilent_of_descend? hnames) heq]
  · exact fun h => List.mem_map_of_mem h

/-- A file below the root is found if it is a script that is not too large and if no beginning of the
names that lead to it is passed over, the whole as a file and the others as directories. -/
theorem joins_mem_findScripts_iff {place names : List String} {content : ByteArray}
    (hplace : fs.place .kept settings.root = .ok place)
    (hfile : fs.node? (place ++ names) = some (.file content)) :
    settings.root.joins names ∈ findScripts fs settings filter ↔
      (settings.root.joins names).isScript = true ∧ content.size ≤ settings.maxFileSize ∧
        ∀ above, above <+: names → above ≠ [] →
          filter.ignores (settings.root.joins above) (decide (above ≠ names)) = false := by
  obtain ⟨node, hnode, hnames⟩ := FileSystem.exists_node_of_append hfile
  rw [joins_mem_findScripts_iff_isSelected hprepare hplain hplace hnode hnames]
  constructor
  · intro h
    obtain ⟨⟨other, hother, hselects⟩, hentered⟩ := h
    obtain rfl : content = other := by
      rw [hnames] at hother
      exact Node.file.inj (Option.some.inj hother)
    obtain ⟨hscript, hignored, hsize⟩ := PathFilter.selects_iff.mp hselects
    refine ⟨hscript, hsize, fun above habove _ => ?_⟩
    by_cases hwhole : above = names
    · rw [hwhole, decide_eq_false fun h => h rfl]
      exact hignored
    · rw [decide_eq_true hwhole]
      exact hentered above habove hwhole
  · intro h
    obtain ⟨hscript, hsize, hignored⟩ := h
    -- The root is never passed over, so the tests of the beginnings that are not empty suffice.
    have hspared (above : List String) (habove : above <+: names) :
        filter.ignores (settings.root.joins above) (decide (above ≠ names)) = false := by
      by_cases hnil : above = []
      · rw [hnil]
        exact ignores_root hprepare _
      · exact hignored above habove hnil
    refine ⟨⟨content, hnames, PathFilter.selects_iff.mpr ⟨hscript, ?_, hsize⟩⟩, ?_⟩
    · have hwhole := hspared names (List.prefix_refl names)
      rwa [decide_eq_false fun h => h rfl] at hwhole
    · intro above habove hpart
      have hdirectory := hspared above habove
      rwa [decide_eq_true hpart] at hdirectory

end Found

/-- Names that a scan does not pass over by itself: none but the last is that of a directory whose
content is always passed over, and none is hidden, unless hidden names are included. -/
structure AreSpared (includeHidden : Bool) (names : List String) : Prop where
  notIgnored : ∀ name ∈ names.dropLast,
    name ∉ [".git", "node_modules", "target", "vendor", "dist", "build", ".cache"]
  notHidden : includeHidden = false → ∀ name ∈ names, name.toList.head? ≠ some '.'

/-- The members of a list are the last ones of its beginnings. -/
theorem mem_iff_exists_prefix_concat {α : Type} {xs : List α} {x : α} :
    x ∈ xs ↔ ∃ before, before ++ [x] <+: xs := by
  constructor
  · intro h
    obtain ⟨before, after, rfl⟩ := List.append_of_mem h
    exact ⟨before, after, by simp⟩
  · intro h
    obtain ⟨before, habove⟩ := h
    exact habove.subset (List.mem_append_right _ List.mem_cons_self)

section Spared

variable {names : List String} (hnames : ∀ name ∈ names, Path.IsEntryName name)
include hnames

/-- Names of entries are hidden if the last one starts with a dot. -/
theorem isHidden_build_concat {before : List String} {name : String} (h : before ++ [name] <+: names) :
    PathFilter.isHidden (Path.build none (before ++ [name])) =
      decide (name.toList.head? = some '.') := by
  have hentries : ∀ other ∈ before ++ [name], Path.IsEntryName other :=
    fun other hother => hnames other (h.subset hother)
  rw [PathFilter.isHidden, Path.fileName?, Path.components_build_of_isEntryName hentries,
    List.map_append, List.map_singleton, List.getLast?_concat]
  rfl

/-- No beginning of names is hidden if none of the names is. -/
theorem forall_isHidden_eq_false_iff :
    (∀ above, above <+: names → above ≠ [] →
        PathFilter.isHidden (Path.build none above) = false) ↔
      ∀ name ∈ names, name.toList.head? ≠ some '.' := by
  constructor
  · intro h name hname
    obtain ⟨before, habove⟩ := mem_iff_exists_prefix_concat.mp hname
    have hhidden := h _ habove (List.concat_ne_nil _ _)
    rw [isHidden_build_concat hnames habove] at hhidden
    exact of_decide_eq_false hhidden
  · intro h above habove hne
    obtain ⟨before, name, rfl⟩ := (List.eq_nil_or_concat' above).resolve_left hne
    rw [isHidden_build_concat hnames habove]
    exact decide_eq_false (h name (mem_iff_exists_prefix_concat.mpr ⟨before, habove⟩))

/-- No beginning of names lies in a directory that is always passed over if the names do not. -/
theorem forall_readDefaults_eq_false_iff :
    (∀ above, above <+: names → above ≠ [] →
        (PathFilter.readDefaults.any fun g => g.accepts (Path.build none above).toString) = false) ↔
      ∀ name ∈ names.dropLast, name ∉ defaultIgnoredDirectories := by
  have haccept {above : List String} (habove : above <+: names) :=
    PathFilter.readDefaults_accept_iff fun name hname =>
      (hnames name (habove.subset hname)).1.noSlash
  constructor
  · intro h name hname hdirectory
    have hne : names ≠ [] := by
      intro hnil
      rw [hnil] at hname
      cases hname
    have hwhole := h names (List.prefix_refl names) hne
    rw [(haccept (List.prefix_refl names)).mpr ⟨name, hdirectory, hname⟩] at hwhole
    cases hwhole
  · intro h above habove hne
    rw [Bool.eq_false_iff]
    intro haccepted
    obtain ⟨name, hdirectory, hname⟩ := (haccept habove).mp haccepted
    obtain ⟨rest, rfl⟩ := habove
    refine h name ?_ hdirectory
    cases rest with
    | nil => rwa [List.append_nil]
    | cons next rest =>
      rw [List.dropLast_append_of_ne_nil (List.cons_ne_nil next rest)]
      exact List.mem_append_left _ (List.dropLast_subset _ hname)

/-- Names are spared if no beginning of them is hidden or lies in a directory that is always passed
over. -/
theorem areSpared_iff {includeHidden : Bool} :
    AreSpared includeHidden names ↔ ∀ above, above <+: names → above ≠ [] →
      (includeHidden = false → PathFilter.isHidden (Path.build none above) = false) ∧
        (PathFilter.readDefaults.any fun g => g.accepts (Path.build none above).toString) = false := by
  constructor
  · intro h above habove hne
    refine ⟨fun hhidden => ?_, ?_⟩
    · exact (forall_isHidden_eq_false_iff hnames).mpr (h.notHidden hhidden) above habove hne
    · exact (forall_readDefaults_eq_false_iff hnames).mpr h.notIgnored above habove hne
  · intro h
    refine ⟨?_, fun hhidden => ?_⟩
    · refine (forall_readDefaults_eq_false_iff hnames).mp ?_
      exact fun above habove hne => (h above habove hne).2
    · refine (forall_isHidden_eq_false_iff hnames).mp ?_
      exact fun above habove hne => (h above habove hne).1 hhidden

end Spared

namespace PathFilter

/-- Names are not passed over if neither their being hidden nor a pattern of either list is against
them. -/
theorem passesOver_eq_false_iff {filter : PathFilter} {names : List String} :
    filter.passesOver names = false ↔
      (filter.includeHidden = false → isHidden (Path.build none names) = false) ∧
        (filter.defaultGlobs.any fun g => g.accepts (Path.build none names).toString) = false ∧
        (filter.customGlobs.any fun g => g.accepts (Path.build none names).toString) = false := by
  rw [passesOver, Bool.or_eq_false_iff, Bool.or_eq_false_iff, and_assoc]
  cases filter.includeHidden <;> simp

end PathFilter

/-- For every tree without links and all settings that a scan can use, the path of a file that is found
consists of names, as seen from the root. None of them but the last is that of a directory whose content
is always passed over, and if hidden names are not included, none starts with a dot. Nothing else is
left out of a scan without ignore files and patterns. -/
theorem components_of_found_paths {fs : FileSystem} {settings : ScanSettings} {filter : PathFilter}
    (hprepare : Scan.prepare fs settings = .ok filter) (hplain : fs.IsPlainAt settings.root) :
    (∀ path ∈ findScripts fs settings filter, ∃ relative names,
      path.relativeTo? settings.root = some relative ∧ relative.components = names.map .name ∧
      AreSpared settings.includeHidden names) ∧
    (settings.ignorePatterns = [] → filter.rules = none → ∀ place names content,
      fs.place .kept settings.root = .ok place →
      fs.node? (place ++ names) = some (.file content) →
      (settings.root.joins names).isScript = true → content.size ≤ settings.maxFileSize →
      AreSpared settings.includeHidden names →
      settings.root.joins names ∈ findScripts fs settings filter) := by
  obtain ⟨-, hfilter⟩ := prepare_eq_ok_iff.mp hprepare
  obtain ⟨rules, customGlobs, -, hglobs, rfl⟩ := PathFilter.ofSettings_eq_ok_iff.mp hfilter
  constructor
  · intro path hpath
    obtain ⟨place, names, content, hplace, hfile, rfl⟩ :=
      exists_names_of_mem_findScripts hprepare hplain hpath
    have hentries := hplain.isEntryName hplace hfile
    have hsilent : ∀ name ∈ names, Path.isSilent name = false :=
      fun name hname => (hentries name hname).1.notSilent
    obtain ⟨-, -, htests⟩ := (joins_mem_findScripts_iff hprepare hplain hplace hfile).mp hpath
    refine ⟨Path.build none names, names,
      Path.relativeTo?_joins hsilent (FileSystem.toString_ne_of_place hplace),
      Path.components_build_of_isEntryName hentries, (areSpared_iff hentries).mpr ?_⟩
    intro above habove hne
    have hpassed := (PathFilter.ignores_joins hne
      (fun name hname => (hentries name (habove.subset hname)).1) _ _).symm.trans
      (htests above habove hne)
    rw [Bool.or_eq_false_iff, PathFilter.passesOver_eq_false_iff] at hpassed
    exact ⟨hpassed.1.1, hpassed.1.2.1⟩
  · intro hpatterns hrules place names content hplace hfile hscript hsize hspared
    have hentries := hplain.isEntryName hplace hfile
    refine (joins_mem_findScripts_iff hprepare hplain hplace hfile).mpr ⟨hscript, hsize, ?_⟩
    intro above habove hne
    refine (PathFilter.ignores_joins hne
      (fun name hname => (hentries name (habove.subset hname)).1) _ _).trans ?_
    rw [hpatterns] at hglobs
    obtain rfl : [] = customGlobs := Except.ok.inj hglobs
    obtain rfl : rules = none := hrules
    obtain ⟨hhidden, hdefaults⟩ := (areSpared_iff hentries).mp hspared above habove hne
    rw [Bool.or_eq_false_iff, PathFilter.passesOver_eq_false_iff]
    exact ⟨⟨hhidden, hdefaults, rfl⟩, rfl⟩

/-- Results of a build beside a script that is named like their directory, and a hidden directory. -/
def builtTree : Node :=
  .directory [("lib", .directory [("target", .directory [("x.elv", .file .empty)]),
      ("target.elv", .file .empty)]),
    (".d", .directory [("c.elv", .file .empty)])]

/-- The file system with this directory as its current one. -/
def builtFiles : FileSystem := ⟨[("w", builtTree)], ["w"]⟩

/-- The current directory holds no links, and no directory in it has two entries of one name. -/
theorem isPlainAt_builtFiles : builtFiles.IsPlainAt ⟨["."]⟩ := by
  intro place node hplace hnode
  obtain rfl : ["w"] = place := Except.ok.inj ((FileSystem.place_current .kept).symm.trans hplace)
  obtain rfl : builtTree = node := Option.some.inj hnode
  refine ⟨.directory (by decide +kernel) (by decide +kernel) ?_, by decide +kernel⟩
  simp only [List.forall_mem_cons]
  refine ⟨.directory (by decide +kernel) (by decide +kernel) ?_,
    .singleton (.file .empty) (by decide +kernel), List.forall_mem_nil _⟩
  simp only [List.forall_mem_cons]
  exact ⟨.singleton (.file .empty) (by decide +kernel), .file .empty, List.forall_mem_nil _⟩

/-- The script in the directory `target` is passed over. The script that is named `target.elv` is
found. -/
theorem components_of_found_builtFiles :
    Scan.prepare builtFiles { root := ⟨["."]⟩ } = .ok defaultFilter ∧
      builtFiles.IsPlainAt ⟨["."]⟩ ∧
      ⟨[".", "lib", "target", "x.elv"]⟩ ∉
        findScripts builtFiles { root := ⟨["."]⟩ } defaultFilter ∧
      ⟨[".", "lib", "target.elv"]⟩ ∈
        findScripts builtFiles { root := ⟨["."]⟩ } defaultFilter := by
  have hprepare : Scan.prepare builtFiles { root := ⟨["."]⟩ } = .ok defaultFilter :=
    prepare_current rfl false
  obtain ⟨hnames, hfound⟩ := components_of_found_paths hprepare isPlainAt_builtFiles
  refine ⟨hprepare, isPlainAt_builtFiles, ?_, ?_⟩
  · intro hmem
    obtain ⟨relative, names, hrelative, hcomponents, hspared⟩ := hnames _ hmem
    have hknown : (⟨[".", "lib", "target", "x.elv"]⟩ : Path).relativeTo? ⟨["."]⟩ =
        some ⟨["lib", "target", "x.elv"]⟩ := by decide +kernel
    obtain rfl := Option.some.inj (hknown.symm.trans hrelative)
    obtain rfl : ["lib", "target", "x.elv"] = names :=
      List.map_injective_iff.mpr (fun _ _ => Path.Component.name.inj) hcomponents
    exact hspared.notIgnored "target" (by simp) (by simp)
  · exact hfound rfl rfl ["w"] ["lib", "target.elv"] .empty (FileSystem.place_current .kept) rfl
      (by decide +kernel) (Nat.zero_le _) ⟨by simp, fun _ => by simp⟩

end ElvishOutline
