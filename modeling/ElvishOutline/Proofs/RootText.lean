import Mathlib.Tactic.MkIffOfInductiveProp
import ElvishOutline.Proofs.FaultyIgnoreFile
import ElvishOutline.Proofs.JoinedPaths

/-!
# Verdicts under different roots

A filter sees a path below its root as the names that lead there, so its patterns say the same about
these names under every root. The rules of ignore files are given the names as well, but they cut the
text of their root off once more. If there are several names and their text starts with the text of
the root, the rules are matched with what is left (`IgnoreRules.matchedText`). For a root `a`, that
makes `x.elv` of the names `a` and `x.elv`.

Nothing else tells one root from another: filters with the same ignore file in their roots differ
about names exactly if the rules decide, and do not say the same about the two texts that are left.
-/

namespace ElvishOutline

namespace Path

/-- A name as it stands between slashes: not empty, no single dot, and without a slash. -/
@[mk_iff] structure IsName (name : String) : Prop where
  notSilent : isSilent name = false
  noSlash : '/' ∉ name.toList

instance (name : String) : Decidable (IsName name) := decidable_of_iff' _ (isName_iff name)

/-- The letters of a name are no slashes, and a dot is not all of them. -/
theorem IsName.exists_cons {name : String} (h : IsName name) :
    ∃ c cs, name.toList = c :: cs ∧ c ≠ '/' ∧ '/' ∉ cs ∧ (c = '.' → cs ≠ []) := by
  have hletters := h.noSlash
  cases hname : name.toList with
  | nil =>
    have hsilent := h.notSilent
    rw [String.toList_eq_nil_iff.mp hname] at hsilent
    cases hsilent
  | cons c cs =>
    rw [hname, List.mem_cons, not_or] at hletters
    refine ⟨c, cs, rfl, Ne.symm hletters.1, hletters.2, ?_⟩
    intro hc hcs
    have hdot : name = "." := String.toList_inj.mp (by rw [hname, hc, hcs]; rfl)
    have hsilent := h.notSilent
    rw [hdot] at hsilent
    cases hsilent

/-- The text of names with slashes between them. -/
def namesText (names : List String) : List Char := ("/".intercalate names).toList

/-- A path that is built of names is written with slashes between them. -/
theorem toList_toString_build (names : List String) :
    (build none names).toString.toList = namesText names := by
  cases names with
  | nil => rfl
  | cons name rest => rfl

section Text

variable {names : List String} (hnames : ∀ name ∈ names, IsName name)
include hnames

/-- Names as they stand between slashes say something. -/
theorem isSilent_eq_false : ∀ name ∈ names, isSilent name = false :=
  fun name hname => (hnames name hname).notSilent

/-- There is a slash in the text only between two names. -/
theorem slash_mem_namesText_iff : '/' ∈ namesText names ↔ 2 ≤ names.length := by
  rcases names with _ | ⟨name, _ | ⟨next, rest⟩⟩
  · simp [namesText]
  · have hname := (hnames name List.mem_cons_self).noSlash
    simp [namesText, hname]
  · simp [namesText]

/-- The text of names starts with the first one. -/
theorem exists_namesText_eq (hne : names ≠ []) :
    ∃ name after, IsName name ∧ namesText names = name.toList ++ after := by
  rcases names with _ | ⟨name, _ | ⟨next, rest⟩⟩
  · exact absurd rfl hne
  · exact ⟨name, [], hnames name List.mem_cons_self, by simp [namesText]⟩
  · refine ⟨name, '/' :: namesText (next :: rest), hnames name List.mem_cons_self, ?_⟩
    simp [namesText]

/-- The text of names starts neither with a slash nor with a dot for the current directory. -/
theorem not_prefix_namesText (hne : names ≠ []) :
    ¬ ['/'] <+: namesText names ∧ ¬ ['.', '/'] <+: namesText names := by
  obtain ⟨name, after, hname, htext⟩ := exists_namesText_eq hnames hne
  obtain ⟨c, cs, hletters, hc, hcs, hdot⟩ := hname.exists_cons
  rw [htext, hletters, List.cons_append, List.cons_prefix_cons, List.cons_prefix_cons]
  refine ⟨fun h => hc h.1.symm, ?_⟩
  intro h
  obtain ⟨hfirst, hrest⟩ := h
  rcases cs with _ | ⟨d, ds⟩
  · exact hdot hfirst.symm rfl
  · rw [List.cons_append, List.cons_prefix_cons] at hrest
    exact hcs (List.mem_cons.mpr (.inl hrest.1))

end Text

/-- A path that starts at the root has an empty segment in front of others. -/
theorem exists_segments_of_isAbsolute {p : Path} (h : p.isAbsolute = true) :
    ∃ next rest, p.segments = "" :: next :: rest := by
  rw [isAbsolute, decide_eq_true_eq, start] at h
  split at h
  · next next rest hsegments => exact ⟨next, rest, hsegments⟩
  · cases h
  · cases h

end Path

namespace IgnoreRules

open ElvishOutline.Path (IsName namesText build)

/-- The text that rules take for their root: without a dot for the current directory. -/
def rootText (root : Path) : List Char := without ['.', '/'] root.toString.toList

/-- Whether rules cut the text of their root off names that are relative to it. -/
def CutsAgain (root : Path) (names : List String) : Prop :=
  (Path.ofString (String.ofList (rootText root))).same ⟨["."]⟩ = false ∧ 2 ≤ names.length ∧
    rootText root ≠ [] ∧ rootText root <+: namesText names

instance (root : Path) (names : List String) : Decidable (CutsAgain root names) :=
  inferInstanceAs (Decidable (_ ∧ _ ∧ _ ∧ _))

/-- The text that rules are matched with for names below their root. -/
def matchedText (root : Path) (names : List String) : List Char :=
  if CutsAgain root names then
    without ['/'] ((namesText names).drop (rootText root).length)
  else namesText names

/-- What rules say about a text: whether they ignore it, or else a directory around it. -/
def verdictOn (rules : List IgnoreRule) (text : List Char) (isDirectory : Bool) : Bool :=
  let path := Path.ofString (String.ofList text)
  (verdict? rules ((path, isDirectory) :: path.ancestors.map fun directory => (directory, true))).any
    (!·)

/-- What does not start a text is not cut off it. -/
theorem without_of_not_prefix {start text : List Char} (h : ¬ start <+: text) :
    without start text = text := by
  rw [without, if_neg (by rwa [List.isPrefixOf_iff_prefix])]

section Names

variable {names : List String} (hne : names ≠ []) (hnames : ∀ name ∈ names, IsName name)
include hne hnames

/-- Of names below their root, rules see the matched text. -/
theorem subject_build (r : IgnoreRules) :
    r.subject (build none names) = .ofString (String.ofList (matchedText r.root names)) := by
  obtain ⟨hslash, hdot⟩ := Path.not_prefix_namesText hnames hne
  have htest : (!(Path.ofString (String.ofList (rootText r.root))).same ⟨["."]⟩ &&
      (namesText names).contains '/' && (rootText r.root).isPrefixOf (namesText names)) = true ↔
      (Path.ofString (String.ofList (rootText r.root))).same ⟨["."]⟩ = false ∧ 2 ≤ names.length ∧
        rootText r.root <+: namesText names := by
    simp [← Path.slash_mem_namesText_iff hnames, and_assoc]
  rw [subject, Path.toList_toString_build, without_of_not_prefix hdot, matchedText]
  by_cases hcut : CutsAgain r.root names
  · rw [if_pos hcut]
    obtain ⟨hcurrent, hseveral, -, hprefix⟩ := hcut
    have hwithout : without (rootText r.root) (namesText names) =
        (namesText names).drop (rootText r.root).length :=
      if_pos (List.isPrefixOf_iff_prefix.mpr hprefix)
    rw [← hwithout]
    exact if_pos (htest.mpr ⟨hcurrent, hseveral, hprefix⟩)
  · rw [if_neg hcut]
    apply ite_eq_right_iff.mpr
    intro htrue
    -- Only an empty text can still be cut off here.
    obtain ⟨hcurrent, hseveral, hprefix⟩ := htest.mp htrue
    have hempty : rootText r.root = [] := by
      by_contra hsome
      exact hcut ⟨hcurrent, hseveral, hsome, hprefix⟩
    have hwithout : without (rootText r.root) (namesText names) = namesText names := by
      rw [hempty]
      rfl
    have hall : without ['/'] (without (rootText r.root) (namesText names)) = namesText names := by
      rw [hwithout, without_of_not_prefix hslash]
    exact congrArg (fun text => Path.ofString (String.ofList text)) hall

/-- About names below their root, rules say what they say about the matched text. -/
theorem ignores_build (r : IgnoreRules) (isDirectory : Bool) :
    r.ignores (build none names) isDirectory =
      verdictOn r.rules (matchedText r.root names) isDirectory := by
  rw [ignores_eq_verdict?, places, subject_build hne hnames]
  rfl

/-- Below a root that is written from the root of the file system nothing is cut off twice. -/
theorem not_cutsAgain_of_isAbsolute {root : Path} (h : root.isAbsolute = true) :
    ¬ CutsAgain root names := by
  have hslash := (Path.not_prefix_namesText hnames hne).1
  intro hcut
  obtain ⟨-, -, -, hprefix⟩ := hcut
  obtain ⟨next, rest, hsegments⟩ := Path.exists_segments_of_isAbsolute h
  have htext : rootText root = '/' :: ("/".intercalate (next :: rest)).toList := by
    rw [rootText, Path.toString, hsegments]
    simp [without]
  rw [htext] at hprefix
  exact hslash ((List.prefix_append ['/'] _).trans hprefix)

end Names

end IgnoreRules

namespace PathFilter

open ElvishOutline.Path (IsName build)

/-- Whether a filter passes names over for what they are, without its rules. -/
def passesOver (filter : PathFilter) (names : List String) : Bool :=
  let relative := build none names
  (!filter.includeHidden && isHidden relative) ||
    filter.defaultGlobs.any (·.accepts relative.toString) ||
    filter.customGlobs.any (·.accepts relative.toString)

/-- A filter with another root. -/
def withRoot (root : Path) (filter : PathFilter) : PathFilter :=
  { filter with root, rules := filter.rules.map fun r => { r with root } }

section Names

variable {names : List String} (hne : names ≠ []) (hnames : ∀ name ∈ names, IsName name)
include hne hnames

/-- Whether a path is hidden is seen from the names that lead there. -/
theorem isHidden_joins (root : Path) : isHidden (root.joins names) = isHidden (build none names) := by
  have hsilent := Path.isSilent_eq_false hnames
  have hlast : (names.map Path.component) ≠ [] := by simpa using hne
  rw [isHidden, isHidden, Path.fileName?, Path.fileName?, Path.components_joins hsilent,
    Path.components_build_none hsilent, List.getLast?_append_of_ne_nil _ hlast]

/-- A filter passes names below its root over for what they are, or because of its rules. -/
theorem ignores_joins (filter : PathFilter) (isDirectory : Bool) :
    filter.ignores (filter.root.joins names) isDirectory =
      (filter.passesOver names || filter.rules.any fun r =>
        IgnoreRules.verdictOn r.rules (IgnoreRules.matchedText r.root names) isDirectory) := by
  have hsilent := Path.isSilent_eq_false hnames
  have hrelative : (filter.root.joins names).relativeTo? filter.root = some (build none names) := by
    by_cases htext : filter.root.toString = ""
    · exact Path.relativeTo?_joins_of_empty hsilent htext
    · exact Path.relativeTo?_joins hsilent htext
  have hother := Path.same_joins hsilent filter.root hne
  have hbelow : (build none names).isAbsolute = false := by
    obtain ⟨name, rest, rfl⟩ := List.exists_cons_of_ne_nil hne
    have hstart := Path.start_of_isSilent_eq_false (hsilent name List.mem_cons_self) rest
    exact congrArg (fun start => decide (start.1 = some Path.Component.root)) hstart
  simp only [ignores, passesOver, hrelative, hother, hbelow, isHidden_joins hne hnames,
    IgnoreRules.ignores_build hne hnames, Option.getD_some, Bool.not_false, Bool.true_and]

/-- Under any root, the rules of a filter are matched with the text that this root leaves. -/
theorem ignores_withRoot (filter : PathFilter) (root : Path) (isDirectory : Bool) :
    (filter.withRoot root).ignores (root.joins names) isDirectory =
      (filter.passesOver names || filter.rules.any fun r =>
        IgnoreRules.verdictOn r.rules (IgnoreRules.matchedText root names) isDirectory) := by
  have hjoins := ignores_joins hne hnames (filter.withRoot root) isDirectory
  rw [withRoot, Option.any_map] at hjoins
  exact hjoins

/-- Two roots make a difference for names exactly if the rules decide and do not say the same about
the texts that the roots leave. -/
theorem ignores_withRoot_ne_iff (filter : PathFilter) (first second : Path) (isDirectory : Bool) :
    (filter.withRoot first).ignores (first.joins names) isDirectory ≠
        (filter.withRoot second).ignores (second.joins names) isDirectory ↔
      filter.passesOver names = false ∧ ∃ r ∈ filter.rules,
        IgnoreRules.verdictOn r.rules (IgnoreRules.matchedText first names) isDirectory ≠
          IgnoreRules.verdictOn r.rules (IgnoreRules.matchedText second names) isDirectory := by
  rw [ignores_withRoot hne hnames, ignores_withRoot hne hnames]
  cases filter.passesOver names with
  | true => simp
  | false => cases filter.rules <;> simp

end Names

/-- The ignore file in a root, as far as there is something under its name. -/
def fileInRoot (fs : FileSystem) (root : Path) : Option (Except FileError ByteArray) :=
  if fs.contains (root.join ".gitignore") then some (fs.read (root.join ".gitignore")) else none

section Roots

variable {fs : FileSystem} {first second : Path}
  (hfile : fileInRoot fs first = fileInRoot fs second)
include hfile

/-- The rules of two roots with the same ignore file are the same, with another root. -/
theorem rulesOf_withRoot (ignoreFile : Option Path) :
    rulesOf fs second ignoreFile =
      (rulesOf fs first ignoreFile).map (Option.map fun r => { r with root := second }) := by
  have hfound : (if fs.contains (second.join ".gitignore") then
        some (IgnoreFile.load fs (second.join ".gitignore")) else none) =
      if fs.contains (first.join ".gitignore") then
        some (IgnoreFile.load fs (first.join ".gitignore")) else none := by
    rw [fileInRoot, fileInRoot] at hfile
    rw [IgnoreFile.load, IgnoreFile.load]
    split at hfile <;> split at hfile
    · next hfirst hsecond => rw [if_pos hfirst, if_pos hsecond, Option.some.inj hfile]
    · cases hfile
    · cases hfile
    · next hfirst hsecond => rw [if_neg hfirst, if_neg hsecond]
  cases ignoreFile with
  | none =>
    simp only [rulesOf, hfound]
    generalize (if fs.contains (first.join ".gitignore") = true then
      some (IgnoreFile.load fs (first.join ".gitignore")) else none) = found
    cases found.any (·.faults.isEmpty) <;> rfl
  | some path =>
    simp only [rulesOf, hfound]
    cases (IgnoreFile.load fs path).faults.isEmpty <;> rfl

/-- With the same ignore file in them, two roots give the same filter but for the root. -/
theorem ofSettings_withRoot (settings : ScanSettings) :
    ofSettings fs { settings with root := second } =
      (ofSettings fs { settings with root := first }).map (withRoot second) := by
  rw [ofSettings_eq, ofSettings_eq, rulesOf_withRoot hfile]
  cases rulesOf fs first settings.ignoreFile with
  | error e => rfl
  | ok rules => cases globs settings.ignorePatterns <;> rfl

end Roots

/-- The filter of a scan has its root in the rules as well. -/
theorem withRoot_of_ofSettings {fs : FileSystem} {settings : ScanSettings} {filter : PathFilter}
    (h : ofSettings fs settings = .ok filter) : filter.withRoot settings.root = filter := by
  have hsame := ofSettings_withRoot (rfl : fileInRoot fs settings.root = _) settings
  rw [h] at hsame
  exact (Except.ok.inj hsame).symm

end PathFilter

open IgnoreRules (CutsAgain matchedText verdictOn)

/-- With the same ignore file in two roots and the same settings otherwise, there is a filter for both
or for none. The filters say the same about names below their roots, unless the rules decide and do
not say the same about the texts that are left of the names. Without a text that is cut off twice
they always say the same, and it is never cut off twice below an absolute root or the current
directory, nor from a single name. -/
theorem verdicts_differ_iff_matched_texts_do {fs : FileSystem} {first second : Path}
    (hfile : PathFilter.fileInRoot fs first = PathFilter.fileInRoot fs second)
    (settings : ScanSettings) :
    PathFilter.ofSettings fs { settings with root := second } =
      (PathFilter.ofSettings fs { settings with root := first }).map (PathFilter.withRoot second) ∧
    ∀ filter filter', PathFilter.ofSettings fs { settings with root := first } = .ok filter →
      PathFilter.ofSettings fs { settings with root := second } = .ok filter' →
      ∀ names, names ≠ [] → (∀ name ∈ names, Path.IsName name) → ∀ isDirectory,
        (filter.ignores (first.joins names) isDirectory ≠
            filter'.ignores (second.joins names) isDirectory ↔
          filter.passesOver names = false ∧ ∃ r ∈ filter.rules,
            verdictOn r.rules (matchedText first names) isDirectory ≠
              verdictOn r.rules (matchedText second names) isDirectory) ∧
        (¬ CutsAgain first names → ¬ CutsAgain second names →
          filter.ignores (first.joins names) isDirectory =
            filter'.ignores (second.joins names) isDirectory) ∧
        ∀ root : Path, root.isAbsolute = true ∨ root = ⟨["."]⟩ ∨ names.length = 1 →
          ¬ CutsAgain root names := by
  have hfilters := PathFilter.ofSettings_withRoot hfile settings
  refine ⟨hfilters, ?_⟩
  intro filter filter' hfirst hsecond names hne hnames isDirectory
  have hroot : filter.withRoot first = filter := PathFilter.withRoot_of_ofSettings hfirst
  rw [hfirst, hsecond] at hfilters
  obtain rfl : filter' = filter.withRoot second := Except.ok.inj hfilters
  have hdiffer := PathFilter.ignores_withRoot_ne_iff hne hnames filter first second isDirectory
  rw [hroot] at hdiffer
  refine ⟨hdiffer, ?_, ?_⟩
  · intro huncut huncut'
    by_contra hne
    obtain ⟨-, r, -, htexts⟩ := hdiffer.mp hne
    rw [matchedText, matchedText, if_neg huncut, if_neg huncut'] at htexts
    exact htexts rfl
  · intro root hroot hcut
    obtain habsolute | rfl | hone := hroot
    · exact IgnoreRules.not_cutsAgain_of_isAbsolute hne hnames habsolute hcut
    · exact absurd hcut.1 (by decide +kernel)
    · have hseveral := hcut.2.1
      omega

/-- The one rule of both ignore files: directories with the name `a` are passed over. -/
def directoryRule : ByteArray := "a/\n".toUTF8

/-- A file system with two directories that hold the same ignore file. -/
def twoRoots : FileSystem :=
  ⟨[("a", .directory [(".gitignore", .file directoryRule)]),
    ("b", .directory [(".gitignore", .file directoryRule)])], []⟩

/-- The filter with this rule and a given root. -/
def ruledFilter (root : Path) : PathFilter where
  root := root
  rules := some ⟨root, (IgnoreFile.ofContent directoryRule).rules⟩
  customGlobs := []
  defaultGlobs := PathFilter.readDefaults
  includeHidden := false

/-- The ignore file of either root can be read. -/
theorem read_twoRoots {root : String} (h : root = "a" ∨ root = "b") :
    twoRoots.read ((⟨[root]⟩ : Path).join ".gitignore") = .ok directoryRule := by
  obtain rfl | rfl := h
  · exact FileSystem.read_below (by decide) (by decide) rfl rfl
  · exact FileSystem.read_below (by decide) (by decide) rfl rfl

/-- There is an ignore file in either root, with the same rule. -/
theorem fileInRoot_twoRoots {root : String} (h : root = "a" ∨ root = "b") :
    PathFilter.fileInRoot twoRoots ⟨[root]⟩ = some (.ok directoryRule) := by
  have hread := read_twoRoots h
  rw [PathFilter.fileInRoot, if_pos (FileSystem.contains_of_read hread), hread]

/-- Both roots have the same ignore file. -/
theorem fileInRoot_twoRoots_eq :
    PathFilter.fileInRoot twoRoots ⟨["a"]⟩ = PathFilter.fileInRoot twoRoots ⟨["b"]⟩ :=
  (fileInRoot_twoRoots (.inl rfl)).trans (fileInRoot_twoRoots (.inr rfl)).symm

/-- The filter of either root has the rule, with this root. -/
theorem ofSettings_twoRoots {root : String} (h : root = "a" ∨ root = "b") :
    PathFilter.ofSettings twoRoots { root := ⟨[root]⟩ } = .ok (ruledFilter ⟨[root]⟩) := by
  have hread := read_twoRoots h
  have hload : IgnoreFile.load twoRoots ((⟨[root]⟩ : Path).join ".gitignore") =
      IgnoreFile.ofContent directoryRule := by
    rw [IgnoreFile.load, hread]
  have hclean : (IgnoreFile.ofContent directoryRule).faults.isEmpty = true := by decide +kernel
  have hrules : PathFilter.rulesOf twoRoots ⟨[root]⟩ none = .ok (ruledFilter ⟨[root]⟩).rules := by
    simp only [PathFilter.rulesOf, FileSystem.contains_of_read hread, hload, if_true,
      Option.any_some, hclean]
    rfl
  rw [PathFilter.ofSettings_eq, hrules]
  rfl

/-- Below the root `b` the script is passed over, and below the root `a` it is not. -/
theorem script_ignored_below_one_root :
    PathFilter.fileInRoot twoRoots ⟨["a"]⟩ = PathFilter.fileInRoot twoRoots ⟨["b"]⟩ ∧
    ∃ filter filter', PathFilter.ofSettings twoRoots { root := ⟨["a"]⟩ } = .ok filter ∧
      PathFilter.ofSettings twoRoots { root := ⟨["b"]⟩ } = .ok filter' ∧
      filter.ignores ((⟨["a"]⟩ : Path).joins ["a", "x.elv"]) false = false ∧
      filter'.ignores ((⟨["b"]⟩ : Path).joins ["a", "x.elv"]) false = true :=
  ⟨fileInRoot_twoRoots_eq, ruledFilter ⟨["a"]⟩, ruledFilter ⟨["b"]⟩, ofSettings_twoRoots (.inl rfl),
    ofSettings_twoRoots (.inr rfl), by decide +kernel, by decide +kernel⟩

/-- Below the root `a` the matched text is cut again, and the verdicts about the script differ. -/
theorem verdicts_differ_about_cut_script :
    PathFilter.fileInRoot twoRoots ⟨["a"]⟩ = PathFilter.fileInRoot twoRoots ⟨["b"]⟩ ∧
    (∀ name ∈ ["a", "x.elv"], Path.IsName name) ∧
    (ruledFilter ⟨["a"]⟩).passesOver ["a", "x.elv"] = false ∧
    CutsAgain ⟨["a"]⟩ ["a", "x.elv"] ∧ ¬ CutsAgain ⟨["b"]⟩ ["a", "x.elv"] ∧
    (ruledFilter ⟨["a"]⟩).ignores ((⟨["a"]⟩ : Path).joins ["a", "x.elv"]) false ≠
      (ruledFilter ⟨["b"]⟩).ignores ((⟨["b"]⟩ : Path).joins ["a", "x.elv"]) false := by
  have hfile := fileInRoot_twoRoots_eq
  have hnames : ∀ name ∈ ["a", "x.elv"], Path.IsName name := by decide +kernel
  obtain ⟨-, hverdicts⟩ := verdicts_differ_iff_matched_texts_do hfile { root := ⟨["."]⟩ }
  obtain ⟨hdiffer, -, -⟩ := hverdicts _ _ (ofSettings_twoRoots (.inl rfl))
    (ofSettings_twoRoots (.inr rfl)) ["a", "x.elv"] (List.cons_ne_nil _ _) hnames false
  refine ⟨hfile, hnames, by decide +kernel, by decide +kernel, by decide +kernel, ?_⟩
  exact hdiffer.mpr ⟨by decide +kernel, _, rfl, by decide +kernel⟩

end ElvishOutline
