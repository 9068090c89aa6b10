import Mathlib.Data.List.Forall2
import ElvishOutline.Proofs.FoundPaths

/-!
# Settings that only remove files

More patterns make a filter pass over more paths, and so does leaving hidden names out. A rule of an
ignore file that takes a path back cannot undo this: it only keeps the other rules from deciding. A
filter that passes over more paths enters fewer directories and takes fewer files, so the walk gives a
part of what it gave before, in the same order.

`PathFilter.Adds` states what one filter passes over besides another. Below the root, files are lost to
this test alone, made for the file itself or for a directory on the way to it
(`notMem_findScripts_iff`).
-/

namespace ElvishOutline

/-- The first filter passes over what the second does and what a test says, the root apart. -/
def PathFilter.Adds (stricter filter : PathFilter) (test : Path → Bool) : Prop :=
  ∀ path isDirectory, stricter.ignores path isDirectory =
    (filter.ignores path isDirectory || (!path.same filter.root && test path))

namespace PathFilter

/-- Further patterns add the test whether one of them accepts a path as seen from the root. -/
theorem adds_globs (filter : PathFilter) (added : List Glob) :
    { filter with customGlobs := filter.customGlobs ++ added }.Adds filter fun path =>
      added.any (·.accepts (filter.seenFrom path).toString) := by
  intro path isDirectory
  simp only [ignores, seenFrom, List.any_append]
  rw [← Bool.and_or_distrib_left]
  congr 1
  ac_rfl

/-- Leaving hidden names out adds the test whether the last name is hidden. -/
theorem adds_isHidden (filter : PathFilter) :
    { filter with includeHidden := false }.Adds filter isHidden := by
  intro path isDirectory
  simp only [ignores, Bool.not_false, Bool.true_and]
  rw [← Bool.and_or_distrib_left]
  congr 1
  cases isHidden path <;> simp

/-- Patterns are read one by one. -/
theorem globs_eq_ok_iff {patterns : List String} {read : List Glob} :
    globs patterns = .ok read ↔
      List.Forall₂ (fun pattern glob => Glob.parse dialect pattern = .ok glob) patterns read := by
  induction patterns generalizing read with
  | nil =>
    rw [List.forall₂_nil_left_iff, globs, Except.ok.injEq, eq_comm]
  | cons pattern rest ih =>
    rw [List.forall₂_cons_left_iff, globs]
    cases Glob.parse dialect pattern with
    | error cause => simp
    | ok glob =>
      cases hrest : globs rest with
      | error e =>
        have hnone (later : List Glob) : ¬ List.Forall₂ _ rest later := fun h => by
          rw [← ih, hrest] at h
          cases h
        simp [Except.map, hnone]
      | ok later =>
        simp only [Except.map, Except.ok.injEq, ← ih, hrest]
        constructor
        · rintro rfl
          exact ⟨glob, later, rfl, rfl, rfl⟩
        · rintro ⟨_, _, rfl, rfl, rfl⟩
          rfl

/-- Patterns can be read together if each of them can. -/
theorem exists_globs {patterns : List String}
    (h : ∀ pattern ∈ patterns, ∃ glob, Glob.parse dialect pattern = .ok glob) :
    ∃ read, globs patterns = .ok read := by
  induction patterns with
  | nil => exact ⟨[], rfl⟩
  | cons pattern rest ih =>
    obtain ⟨⟨glob, hglob⟩, hlater⟩ := List.forall_mem_cons.mp h
    obtain ⟨later, hrest⟩ := ih hlater
    exact ⟨glob :: later, by rw [globs, hglob, hrest]; rfl⟩

/-- Whether a pattern accepts the names that lead to a path from the root. -/
def PatternAccepts (pattern : String) (names : List String) : Prop :=
  ∃ glob, Glob.parse dialect pattern = .ok glob ∧
    glob.accepts (Path.build none names).toString = true

/-- One of the patterns that are read accepts names if one of the texts does. -/
theorem any_accepts_iff {patterns : List String} {read : List Glob} (h : globs patterns = .ok read)
    (names : List String) :
    (read.any fun glob => glob.accepts (Path.build none names).toString) = true ↔
      ∃ pattern ∈ patterns, PatternAccepts pattern names := by
  induction globs_eq_ok_iff.mp h with
  | nil => simp
  | cons hglob hrest ih =>
    rw [List.any_cons, Bool.or_eq_true, ih (globs_eq_ok_iff.mpr hrest), List.exists_mem_cons_iff]
    refine or_congr_left ?_
    simp [PatternAccepts, hglob]

end PathFilter

section Walk

variable {stricter filter : PathFilter} {test : Path → Bool} (hadds : stricter.Adds filter test)
include hadds

/-- What the stricter filter spares, the other one spares. -/
theorem PathFilter.Adds.ignores_eq_false {path : Path} {isDirectory : Bool}
    (h : stricter.ignores path isDirectory = false) : filter.ignores path isDirectory = false := by
  rw [hadds, Bool.or_eq_false_iff] at h
  exact h.1

/-- What the stricter filter selects, the other one selects. -/
theorem PathFilter.Adds.selects {maxFileSize size : Nat} {path : Path}
    (h : stricter.selects maxFileSize path size = true) :
    filter.selects maxFileSize path size = true := by
  obtain ⟨hscript, hignored, hsize⟩ := PathFilter.selects_iff.mp h
  exact PathFilter.selects_iff.mpr ⟨hscript, hadds.ignores_eq_false hignored, hsize⟩

end Walk

mutual
/-- The scripts of a tree under the stricter filter are a part of those under the other, in order. -/
theorem scripts_sublist {stricter filter : PathFilter} {test : Path → Bool}
    (hadds : stricter.Adds filter test) (maxFileSize : Nat) (path : Path) : (tree : Tree) →
    (tree.scripts stricter maxFileSize path).Sublist (tree.scripts filter maxFileSize path)
  | .leaf size => by
    rw [Tree.scripts, Tree.scripts]
    by_cases hselects : stricter.selects maxFileSize path size = true
    · rw [if_pos hselects, if_pos (hadds.selects hselects)]
    · rw [if_neg hselects]
      exact List.nil_sublist _
  | .directory entries => by
    rw [Tree.scripts, Tree.scripts]
    cases hignored : stricter.ignores path true with
    | true => exact List.nil_sublist _
    | false =>
      rw [hadds.ignores_eq_false hignored]
      exact entryScripts_sublist hadds maxFileSize path entries

/-- So are the scripts of the entries of a directory. -/
theorem entryScripts_sublist {stricter filter : PathFilter} {test : Path → Bool}
    (hadds : stricter.Adds filter test) (maxFileSize : Nat) (path : Path) :
    (entries : List (String × Tree)) →
    (Tree.entryScripts stricter maxFileSize path entries).Sublist
      (Tree.entryScripts filter maxFileSize path entries)
  | [] => List.Sublist.refl _
  | (name, tree) :: rest => by
    rw [Tree.entryScripts, Tree.entryScripts]
    exact (scripts_sublist hadds maxFileSize (path.join name) tree).append
      (entryScripts_sublist hadds maxFileSize path rest)
end

/-- Settings that start the same walk and have the same limit. -/
structure ScanSettings.WalksLike (settings other : ScanSettings) : Prop where
  root : settings.root = other.root
  followLinks : settings.followLinks = other.followLinks
  maxFileSize : settings.maxFileSize = other.maxFileSize

section Scan

variable {fs : FileSystem} {settings tighter : ScanSettings} {filter stricter : PathFilter}
  {test : Path → Bool} (hadds : stricter.Adds filter test) (hwalk : tighter.WalksLike settings)
include hadds hwalk

/-- A scan with a stricter filter finds a part of what it finds without, in the same order, whether
there are links or not. -/
theorem findScripts_sublist :
    (findScripts fs tighter stricter).Sublist (findScripts fs settings filter) := by
  rw [findScripts, findScripts, hwalk.root, hwalk.followLinks, hwalk.maxFileSize]
  refine List.Sublist.append ?_ (entryScripts_sublist hadds _ _ _)
  refine List.Sublist.map _ ?_
  cases (fs.walkStart settings.followLinks settings.root).leaf? with
  | none => exact List.Sublist.refl _
  | some size =>
    by_cases hselects : stricter.selects settings.maxFileSize settings.root size = true
    · rw [Option.filter_some, Option.filter_some, if_pos hselects, if_pos (hadds.selects hselects)]
    · rw [Option.filter_some, if_neg hselects]
      exact List.nil_sublist _

/-- A file that is found without the added test is lost if the test says so of the file or of a
directory on the way to it. -/
theorem notMem_findScripts_iff (hprepare : Scan.prepare fs settings = .ok filter)
    (hstricter : Scan.prepare fs tighter = .ok stricter) (hplain : fs.IsPlainAt settings.root)
    {place names : List String} {content : ByteArray}
    (hplace : fs.place .kept settings.root = .ok place)
    (hfile : fs.node? (place ++ names) = some (.file content))
    (hfound : settings.root.joins names ∈ findScripts fs settings filter) :
    settings.root.joins names ∉ findScripts fs tighter stricter ↔
      ∃ above, above <+: names ∧ above ≠ [] ∧ test (settings.root.joins above) = true := by
  obtain ⟨hscript, hsize, hignored⟩ :=
    (joins_mem_findScripts_iff hprepare hplain hplace hfile).mp hfound
  rw [← hwalk.root] at hplain hplace
  have hleft := joins_mem_findScripts_iff hstricter hplain hplace hfile
  have hentries := hplain.isEntryName hplace hfile
  rw [hwalk.root, hwalk.maxFileSize, and_iff_right hscript, and_iff_right hsize] at hleft
  have hroot := PathFilter.root_of_ofSettings (prepare_eq_ok_iff.mp hprepare).2
  have htest {above : List String} (habove : above <+: names) (hne : above ≠ []) :
      stricter.ignores (settings.root.joins above) (decide (above ≠ names)) =
        test (settings.root.joins above) := by
    have hother := Path.same_joins
      (fun name hname => (hentries name (habove.subset hname)).1.notSilent) settings.root hne
    rw [hadds, hignored above habove hne, hroot, hother, Bool.false_or, Bool.not_false, Bool.true_and]
  rw [hleft]
  constructor
  · intro hlost
    by_contra hnone
    refine hlost fun above habove hne => ?_
    rw [htest habove hne, Bool.eq_false_iff]
    exact fun h => hnone ⟨above, habove, hne, h⟩
  · intro h hkept
    obtain ⟨above, habove, hne, hsays⟩ := h
    have hspared := hkept above habove hne
    rw [htest habove hne, hsays] at hspared
    cases hspared

end Scan

namespace ScanSettings

/-- Settings with further patterns. -/
def withPatterns (added : List String) (settings : ScanSettings) : ScanSettings :=
  { settings with ignorePatterns := settings.ignorePatterns ++ added }

/-- Settings that leave hidden names out. -/
def withoutHidden (settings : ScanSettings) : ScanSettings :=
  { settings with includeHidden := false }

/-- Further patterns change neither the start of a walk nor its limit. -/
theorem walksLike_withPatterns (added : List String) (settings : ScanSettings) :
    (settings.withPatterns added).WalksLike settings :=
  ⟨rfl, rfl, rfl⟩

/-- Leaving hidden names out changes neither the start of a walk nor its limit. -/
theorem walksLike_withoutHidden (settings : ScanSettings) :
    settings.withoutHidden.WalksLike settings :=
  ⟨rfl, rfl, rfl⟩

variable {fs : FileSystem} {settings : ScanSettings} {filter : PathFilter}
  (hprepare : Scan.prepare fs settings = .ok filter)
include hprepare

/-- Further patterns that can be read join those of the filter, which is otherwise the same. -/
theorem prepare_withPatterns {added : List String} {read : List Glob}
    (hread : PathFilter.globs added = .ok read) :
    Scan.prepare fs (settings.withPatterns added) =
      .ok { filter with customGlobs := filter.customGlobs ++ read } := by
  obtain ⟨hcheck, hfilter⟩ := prepare_eq_ok_iff.mp hprepare
  obtain ⟨rules, customGlobs, hrules, hglobs, rfl⟩ := PathFilter.ofSettings_eq_ok_iff.mp hfilter
  have hall : PathFilter.globs (settings.ignorePatterns ++ added) = .ok (customGlobs ++ read) :=
    PathFilter.globs_eq_ok_iff.mpr (List.rel_append (PathFilter.globs_eq_ok_iff.mp hglobs)
      (PathFilter.globs_eq_ok_iff.mp hread))
  exact prepare_eq_ok_iff.mpr
    ⟨hcheck, PathFilter.ofSettings_eq_ok_iff.mpr ⟨rules, _, hrules, hall, rfl⟩⟩

/-- Leaving hidden names out changes nothing else in the filter. -/
theorem prepare_withoutHidden :
    Scan.prepare fs settings.withoutHidden = .ok { filter with includeHidden := false } := by
  obtain ⟨hcheck, hfilter⟩ := prepare_eq_ok_iff.mp hprepare
  obtain ⟨rules, customGlobs, hrules, hglobs, rfl⟩ := PathFilter.ofSettings_eq_ok_iff.mp hfilter
  exact prepare_eq_ok_iff.mpr
    ⟨hcheck, PathFilter.ofSettings_eq_ok_iff.mpr ⟨rules, customGlobs, hrules, hglobs, rfl⟩⟩

end ScanSettings

/-- Of the files below a root that are found, those are lost whose names, from the root on, have a
property. -/
def LosesExactly (fs : FileSystem) (root : Path) (found fewer : List Path)
    (P : List String → Prop) : Prop :=
  ∀ place names content, fs.place .kept root = .ok place →
    fs.node? (place ++ names) = some (.file content) → root.joins names ∈ found →
    (root.joins names ∉ fewer ↔ P names)

section Lost

variable {fs : FileSystem} {settings : ScanSettings} {filter : PathFilter}
  (hprepare : Scan.prepare fs settings = .ok filter) (hplain : fs.IsPlainAt settings.root)
include hprepare hplain

/-- Further patterns lose the files that one of them accepts and those in directories that it does. -/
theorem losesExactly_withPatterns {added : List String} {read : List Glob}
    (hread : PathFilter.globs added = .ok read) :
    LosesExactly fs settings.root (findScripts fs settings filter)
      (findScripts fs (settings.withPatterns added)
        { filter with customGlobs := filter.customGlobs ++ read })
      fun names => ∃ above, above <+: names ∧ above ≠ [] ∧
        ∃ pattern ∈ added, PathFilter.PatternAccepts pattern above := by
  intro place names content hplace hfile hfound
  have hentries := hplain.isEntryName hplace hfile
  have hroot := PathFilter.root_of_ofSettings (prepare_eq_ok_iff.mp hprepare).2
  refine (notMem_findScripts_iff (PathFilter.adds_globs filter read)
    (settings.walksLike_withPatterns added) hprepare
    (ScanSettings.prepare_withPatterns hprepare hread) hplain hplace hfile hfound).trans ?_
  refine exists_congr fun above => and_congr_right fun habove => and_congr_right fun _ => ?_
  have hrelative := Path.relativeTo?_joins
    (fun name hname => (hentries name (habove.subset hname)).1.notSilent)
    (FileSystem.toString_ne_of_place hplace)
  rw [PathFilter.seenFrom, hroot, hrelative, Option.getD_some]
  exact PathFilter.any_accepts_iff hread above

/-- Leaving hidden names out loses the files with such a name and those in such directories. -/
theorem losesExactly_withoutHidden :
    LosesExactly fs settings.root (findScripts fs settings filter)
      (findScripts fs settings.withoutHidden { filter with includeHidden := false })
      fun names => ∃ name ∈ names, name.toList.head? = some '.' := by
  intro place names content hplace hfile hfound
  have hentries := hplain.isEntryName hplace hfile
  refine (notMem_findScripts_iff (PathFilter.adds_isHidden filter) settings.walksLike_withoutHidden
    hprepare (ScanSettings.prepare_withoutHidden hprepare) hplain hplace hfile hfound).trans ?_
  have hhidden {above : List String} (habove : above <+: names) (hne : above ≠ []) :=
    PathFilter.isHidden_joins hne (fun name hname => (hentries name (habove.subset hname)).1)
      settings.root
  have hnone := not_congr (forall_isHidden_eq_false_iff hentries)
  simp only [not_forall, Bool.not_eq_false, not_not, exists_prop] at hnone
  refine (exists_congr fun above => and_congr_right fun habove => and_congr_right fun hne => ?_).trans
    hnone
  rw [hhidden habove hne]

end Lost

/-- For every file system and all settings that a scan can use, further patterns that can be read leave
a part of the scripts that are found, in the same order, and so does leaving hidden names out. In a tree
without links the files that are lost are those that one of the patterns accepts, or that lie in a
directory below the root that it accepts, and the files with a hidden name on the way. -/
theorem stricter_settings_only_remove {fs : FileSystem} {settings : ScanSettings}
    {filter : PathFilter} (hprepare : Scan.prepare fs settings = .ok filter) {added : List String}
    (hadded : ∀ pattern ∈ added, ∃ glob, Glob.parse PathFilter.dialect pattern = .ok glob) :
    (∃ stricter, Scan.prepare fs (settings.withPatterns added) = .ok stricter ∧
      (findScripts fs (settings.withPatterns added) stricter).Sublist
        (findScripts fs settings filter) ∧
      (fs.IsPlainAt settings.root →
        LosesExactly fs settings.root (findScripts fs settings filter)
          (findScripts fs (settings.withPatterns added) stricter)
          fun names => ∃ above, above <+: names ∧ above ≠ [] ∧
            ∃ pattern ∈ added, PathFilter.PatternAccepts pattern above)) ∧
    ∃ stricter, Scan.prepare fs settings.withoutHidden = .ok stricter ∧
      (findScripts fs settings.withoutHidden stricter).Sublist (findScripts fs settings filter) ∧
      (fs.IsPlainAt settings.root →
        LosesExactly fs settings.root (findScripts fs settings filter)
          (findScripts fs settings.withoutHidden stricter)
          fun names => ∃ name ∈ names, name.toList.head? = some '.') := by
  obtain ⟨read, hread⟩ := PathFilter.exists_globs hadded
  constructor
  · refine ⟨_, ScanSettings.prepare_withPatterns hprepare hread, ?_, ?_⟩
    · exact findScripts_sublist (PathFilter.adds_globs filter read)
        (settings.walksLike_withPatterns added)
    · exact fun hplain => losesExactly_withPatterns hprepare hplain hread
  · refine ⟨_, ScanSettings.prepare_withoutHidden hprepare, ?_, ?_⟩
    · exact findScripts_sublist (PathFilter.adds_isHidden filter) settings.walksLike_withoutHidden
    · exact fun hplain => losesExactly_withoutHidden hprepare hplain

/-- Settings for a scan of the current directory with hidden names. -/
def withHidden : ScanSettings := { root := ⟨["."]⟩, includeHidden := true }

/-- The filter of a scan with hidden names has no rules and the patterns that are always used. -/
theorem prepare_withHidden :
    Scan.prepare builtFiles withHidden = .ok { defaultFilter with includeHidden := true } :=
  prepare_current rfl true

/-- Names that lead to an empty script are found if no beginning of them is passed over. -/
theorem mem_findScripts_withHidden (names : List String)
    (hfile : builtFiles.node? (["w"] ++ names) = some (.file .empty))
    (hscript : (withHidden.root.joins names).isScript = true)
    (htests : ∀ above ∈ names.inits, above ≠ [] →
      { defaultFilter with includeHidden := true }.ignores (withHidden.root.joins above)
        (decide (above ≠ names)) = false) :
    withHidden.root.joins names ∈
      findScripts builtFiles withHidden { defaultFilter with includeHidden := true } := by
  refine (joins_mem_findScripts_iff prepare_withHidden isPlainAt_builtFiles
    (FileSystem.place_current .kept) hfile).mpr ⟨hscript, Nat.zero_le _, fun above habove => ?_⟩
  exact htests above ((List.mem_inits _ _).mpr habove)

/-- A pattern removes the script below `lib`. Leaving hidden names out removes another one and keeps
it. -/
theorem stricter_settings_remove_from_builtFiles :
    Scan.prepare builtFiles withHidden = .ok { defaultFilter with includeHidden := true } ∧
      builtFiles.IsPlainAt withHidden.root ∧
      (∃ stricter, Scan.prepare builtFiles (withHidden.withPatterns ["lib/*"]) = .ok stricter ∧
        ⟨[".", "lib", "target.elv"]⟩ ∉
          findScripts builtFiles (withHidden.withPatterns ["lib/*"]) stricter) ∧
      ∃ stricter, Scan.prepare builtFiles withHidden.withoutHidden = .ok stricter ∧
        ⟨[".", ".d", "c.elv"]⟩ ∉ findScripts builtFiles withHidden.withoutHidden stricter ∧
        ⟨[".", "lib", "target.elv"]⟩ ∈ findScripts builtFiles withHidden.withoutHidden stricter := by
  have hparse : ∃ glob, Glob.parse PathFilter.dialect "lib/*" = .ok glob ∧
      glob.accepts (Path.build none ["lib", "target.elv"]).toString = true := by
    have hread : ((Glob.parse PathFilter.dialect "lib/*").toOption.any fun glob =>
        glob.accepts (Path.build none ["lib", "target.elv"]).toString) = true := by decide +kernel
    cases hglob : Glob.parse PathFilter.dialect "lib/*" with
    | error e =>
      rw [hglob] at hread
      cases hread
    | ok glob =>
      rw [hglob] at hread
      exact ⟨glob, rfl, hread⟩
  have hadded : ∀ pattern ∈ ["lib/*"], ∃ glob, Glob.parse PathFilter.dialect pattern = .ok glob :=
    List.forall_mem_singleton.mpr (hparse.imp fun _ h => h.1)
  have hscript := mem_findScripts_withHidden ["lib", "target.elv"] rfl
    (by decide +kernel) (by decide +kernel)
  have hhidden := mem_findScripts_withHidden [".d", "c.elv"] rfl
    (by decide +kernel) (by decide +kernel)
  obtain ⟨⟨patterned, hpatterned, -, hlost⟩, shown, hshown, -, hlostHidden⟩ :=
    stricter_settings_only_remove prepare_withHidden hadded
  have hplace : builtFiles.place .kept withHidden.root = .ok ["w"] := FileSystem.place_current .kept
  have hgone := hlostHidden isPlainAt_builtFiles ["w"]
  refine ⟨prepare_withHidden, isPlainAt_builtFiles, ⟨patterned, hpatterned, ?_⟩, shown, hshown, ?_, ?_⟩
  · exact (hlost isPlainAt_builtFiles ["w"] _ .empty hplace rfl hscript).mpr
      ⟨_, List.prefix_refl _, List.cons_ne_nil _ _, "lib/*", List.mem_singleton_self _, hparse⟩
  · exact (hgone _ .empty hplace rfl hhidden).mpr ⟨".d", List.mem_cons_self, by decide +kernel⟩
  · refine Classical.not_not.mp fun h => ?_
    obtain ⟨name, hname, hdot⟩ := (hgone _ .empty hplace rfl hscript).mp h
    have hnone : ∀ name ∈ ["lib", "target.elv"], name.toList.head? ≠ some '.' := by decide +kernel
    exact hnone name hname hdot

end ElvishOutline
