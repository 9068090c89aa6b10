import ElvishOutline.Proofs.Filters
import ElvishOutline.Proofs.Places

/-!
# Ignore files with bad lines in the root of a scan

A bad line in the ignore file of the root takes the file out of a scan, unless the settings give
another ignore file. Then the rules of its good lines count, as if they stood in front of the given
file. This module says for which paths that makes a difference.

The rules are asked about a path and then about the directories around it. Rules put in front of
others change the answer exactly if they decide first, at a place where the others say nothing, and
against what the others say about the places further out
(`PathFilter.ignores_withRulesAhead_ne_iff`).
-/

namespace ElvishOutline

namespace IgnoreFile

/-- A line that gives no rule because it is no text or has a bad pattern. -/
def IsInvalidLine (number : Nat) (bytes : List UInt8) : Prop :=
  ∀ line, lineText? number bytes = some line → ∃ e, IgnoreRule.parse line = .error e

/-- The content of a file with such a line. -/
def HasInvalidLine (content : ByteArray) : Prop :=
  ∃ i bytes, (splitLines [] content.toList)[i]? = some bytes ∧ IsInvalidLine (i + 1) bytes

/-- One of some lines is invalid if the first one or one of the others is. -/
theorem exists_isInvalidLine_cons_iff (number : Nat) (bytes : List UInt8)
    (rest : List (List UInt8)) :
    (∃ i found, (bytes :: rest)[i]? = some found ∧ IsInvalidLine (number + i) found) ↔
      IsInvalidLine number bytes ∨
        ∃ i found, rest[i]? = some found ∧ IsInvalidLine (number + 1 + i) found := by
  refine ⟨?_, ?_⟩
  · intro h
    obtain ⟨i, found, hfound, hinvalid⟩ := h
    cases i with
    | zero =>
      obtain rfl := Option.some.inj hfound
      exact .inl hinvalid
    | succ i =>
      refine .inr ⟨i, found, hfound, ?_⟩
      rwa [Nat.add_right_comm, Nat.add_assoc]
  · intro h
    cases h with
    | inl hinvalid => exact ⟨0, bytes, rfl, hinvalid⟩
    | inr h =>
      obtain ⟨i, found, hfound, hinvalid⟩ := h
      refine ⟨i + 1, found, hfound, ?_⟩
      rwa [Nat.add_right_comm, Nat.add_assoc] at hinvalid

/-- Lines have faults if and only if one of them is invalid. -/
theorem faults_ofLines_ne_nil_iff (number : Nat) (lines : List (List UInt8)) :
    (ofLines number lines).faults ≠ [] ↔
      ∃ i bytes, lines[i]? = some bytes ∧ IsInvalidLine (number + i) bytes := by
  induction lines generalizing number with
  | nil => simp [ofLines]
  | cons bytes rest ih =>
    rw [exists_isInvalidLine_cons_iff, ← ih (number + 1), ofLines]
    cases htext : lineText? number bytes with
    | none => simp [IsInvalidLine, htext]
    | some line =>
      cases hrule : IgnoreRule.parse line with
      | error e => simp [IsInvalidLine, htext, hrule]
      | ok found => cases found <;> simp [IsInvalidLine, htext, hrule]

/-- A file with an invalid line has faults. -/
theorem faults_ne_nil_of_hasInvalidLine {content : ByteArray} (h : HasInvalidLine content) :
    (ofContent content).faults ≠ [] := by
  obtain ⟨i, bytes, hline, hinvalid⟩ := h
  refine (faults_ofLines_ne_nil_iff 1 _).mpr ⟨i, bytes, hline, ?_⟩
  rwa [Nat.add_comm]

end IgnoreFile

namespace IgnoreRules

/-- The places that rules are asked about for a path, the innermost first, and whether each is a
directory. -/
def places (r : IgnoreRules) (path : Path) (isDirectory : Bool) : List (Path × Bool) :=
  (r.subject path, isDirectory) :: (r.subject path).ancestors.map fun directory => (directory, true)

/-- The decision about the innermost of some places for which there is one. -/
def verdict? (rules : List IgnoreRule) (places : List (Path × Bool)) : Option Bool :=
  places.findSome? fun place => decision? rules place.1 place.2

/-- Rules ignore a path if the innermost place with a decision about it is not to be kept. -/
theorem ignores_eq_verdict? (r : IgnoreRules) (path : Path) (isDirectory : Bool) :
    r.ignores path isDirectory = (verdict? r.rules (r.places path isDirectory)).any (!·) := by
  rw [ignores, verdict?, places, List.findSome?_cons, List.findSome?_map]
  cases decision? r.rules (r.subject path) isDirectory with
  | some keeps => rfl
  | none =>
    rw [Option.none_or]
    rfl

/-- Of two lists of rules, the second has the say at a place. -/
theorem decision?_append (earlier later : List IgnoreRule) (path : Path) (isDirectory : Bool) :
    decision? (earlier ++ later) path isDirectory =
      (decision? later path isDirectory).or (decision? earlier path isDirectory) := by
  rw [decision?, List.reverse_append, List.find?_append, Option.map_or]
  rfl

/-- At the innermost place with a decision only the earlier rules have one, and it is not what the
later rules say about the places further out. -/
def Overrules (earlier later : List IgnoreRule) (places : List (Path × Bool)) : Prop :=
  ∃ inner place outer keeps, places = inner ++ place :: outer ∧
    (∀ p ∈ inner, decision? later p.1 p.2 = none ∧ decision? earlier p.1 p.2 = none) ∧
    decision? later place.1 place.2 = none ∧ decision? earlier place.1 place.2 = some keeps ∧
    (verdict? later outer).any (!·) = keeps

/-- What the innermost place has to do with it: the later rules say nothing about it, and either it
settles the matter or the earlier rules say nothing either. -/
theorem overrules_cons_iff {earlier later : List IgnoreRule} {place : Path × Bool}
    {outer : List (Path × Bool)} :
    Overrules earlier later (place :: outer) ↔ decision? later place.1 place.2 = none ∧
      ((∃ keeps, decision? earlier place.1 place.2 = some keeps ∧
          (verdict? later outer).any (!·) = keeps) ∨
        decision? earlier place.1 place.2 = none ∧ Overrules earlier later outer) := by
  refine ⟨?_, ?_⟩
  · intro h
    obtain ⟨inner, first, rest, keeps, hplaces, hinner, hlater, hearlier, hrest⟩ := h
    cases inner with
    | nil =>
      obtain ⟨rfl, rfl⟩ := List.cons.inj hplaces
      exact ⟨hlater, .inl ⟨keeps, hearlier, hrest⟩⟩
    | cons p inner =>
      obtain ⟨rfl, rfl⟩ := List.cons.inj hplaces
      obtain ⟨hplace, hinner⟩ := List.forall_mem_cons.mp hinner
      exact ⟨hplace.1, .inr ⟨hplace.2, inner, first, rest, keeps, rfl, hinner, hlater, hearlier,
        hrest⟩⟩
  · intro h
    obtain ⟨hlater, hfirst | hnext⟩ := h
    · obtain ⟨keeps, hearlier, hrest⟩ := hfirst
      exact ⟨[], place, outer, keeps, rfl, List.forall_mem_nil _, hlater, hearlier, hrest⟩
    · obtain ⟨hnone, inner, first, rest, keeps, rfl, hinner, hfirst⟩ := hnext
      exact ⟨place :: inner, first, rest, keeps, rfl,
        List.forall_mem_cons.mpr ⟨⟨hlater, hnone⟩, hinner⟩, hfirst⟩

/-- Rules in front of others change the verdict about places if and only if they overrule them. -/
theorem verdict?_append_ne_iff (earlier later : List IgnoreRule) (places : List (Path × Bool)) :
    (verdict? (earlier ++ later) places).any (!·) ≠ (verdict? later places).any (!·) ↔
      Overrules earlier later places := by
  -- The places are taken from the inside out. The first one with a decision ends the matter.
  induction places with
  | nil => simp [verdict?, Overrules]
  | cons place outer ih =>
    rw [overrules_cons_iff, verdict?, verdict?, List.findSome?_cons, List.findSome?_cons,
      decision?_append]
    cases hlater : decision? later place.1 place.2 with
    | some keeps => simp
    | none =>
      cases hearlier : decision? earlier place.1 place.2 with
      | some keeps =>
        have hdiffer (answer : Bool) : (!keeps) ≠ answer ↔ answer = keeps := by
          cases keeps <;> cases answer <;> decide
        simp only [Option.none_or, Option.any_some, Option.some.injEq, exists_eq_left', reduceCtorEq,
          false_and, or_false, true_and]
        exact hdiffer _
      | none =>
        simp only [Option.none_or, reduceCtorEq, false_and, exists_false, false_or, true_and]
        exact ih

end IgnoreRules

namespace PathFilter

/-- A filter with rules put in front of those that it has, if it has any. -/
def withRulesAhead (earlier : List IgnoreRule) (filter : PathFilter) : PathFilter :=
  { filter with rules := filter.rules.map fun r => { r with rules := earlier ++ r.rules } }

/-- Rules put in front of others change the answer for a path if and only if the path is left to the
rules and they overrule the others there. -/
theorem ignores_withRulesAhead_ne_iff (earlier : List IgnoreRule) (filter : PathFilter) (path : Path)
    (isDirectory : Bool) :
    (filter.withRulesAhead earlier).ignores path isDirectory ≠ filter.ignores path isDirectory ↔
      filter.asksRules path = true ∧ ∃ r ∈ filter.rules,
        IgnoreRules.Overrules earlier r.rules (r.places (filter.seenFrom path) isDirectory) := by
  have hasks : (filter.withRulesAhead earlier).asksRules path = filter.asksRules path := rfl
  have hother : { filter.withRulesAhead earlier with rules := none }.ignores path false =
    { filter with rules := none }.ignores path false := rfl
  rw [ignores_eq, ignores_eq filter, hasks, hother]
  cases hpath : filter.asksRules path with
  | false => simp
  | true =>
    have hleft : { filter with rules := none }.ignores path false = false := by
      rw [asksRules, Bool.and_eq_true] at hpath
      simpa using hpath.2
    rw [hleft, Bool.true_and, Bool.true_and, Bool.false_or, Bool.false_or, withRulesAhead]
    cases filter.rules with
    | none => simp
    | some r =>
      have hplaces : ({ r with rules := earlier ++ r.rules } : IgnoreRules).places
        (filter.seenFrom path) isDirectory = r.places (filter.seenFrom path) isDirectory := rfl
      have hseen : seenFrom { filter with rules := some { r with rules := earlier ++ r.rules } } path =
        filter.seenFrom path := rfl
      simp only [Option.map_some, Option.any_some, hseen, IgnoreRules.ignores_eq_verdict?, hplaces,
        IgnoreRules.verdict?_append_ne_iff, Option.mem_some_iff, exists_eq_left', true_and]

section InRoot

variable {fs bare : FileSystem} {settings : ScanSettings} {content : ByteArray}
  (hread : fs.read (settings.root.join ".gitignore") = .ok content)
  (hinvalid : IgnoreFile.HasInvalidLine content)
  (hbare : bare.contains (settings.root.join ".gitignore") = false)
  (hsame : ∀ path ∈ settings.ignoreFile, bare.read path = fs.read path)
include hread hinvalid hbare hsame

/-- The rules of a scan whose root has a faulty ignore file are those of a scan without it, with the
rules of its good lines in front. -/
theorem rulesOf_of_hasInvalidLine :
    rulesOf fs settings.root settings.ignoreFile =
      (rulesOf bare settings.root settings.ignoreFile).map (Option.map fun r =>
        { r with rules := (IgnoreFile.ofContent content).rules ++ r.rules }) := by
  have hcontains := FileSystem.contains_of_read hread
  have hload : IgnoreFile.load fs (settings.root.join ".gitignore") =
      IgnoreFile.ofContent content := by
    rw [IgnoreFile.load, hread]
  have hfaults : (IgnoreFile.ofContent content).faults.isEmpty = false :=
    List.isEmpty_eq_false_iff.mpr (IgnoreFile.faults_ne_nil_of_hasInvalidLine hinvalid)
  cases hfile : settings.ignoreFile with
  | none =>
    simp only [rulesOf, hcontains, hbare, hload, if_true, Option.any_some, hfaults]
    rfl
  | some path =>
    have hgiven : IgnoreFile.load bare path = IgnoreFile.load fs path := by
      rw [IgnoreFile.load, IgnoreFile.load, hsame path hfile]
    simp only [rulesOf, hcontains, hbare, hload, hgiven, if_true]
    cases (IgnoreFile.load fs path).faults.isEmpty <;> rfl

/-- The filter with a faulty file in the root is the filter without that file, with the rules of its
good lines in front of those of the given file. -/
theorem ofSettings_of_hasInvalidLine :
    ofSettings fs settings =
      (ofSettings bare settings).map (withRulesAhead (IgnoreFile.ofContent content).rules) := by
  rw [ofSettings_eq, ofSettings_eq, rulesOf_of_hasInvalidLine hread hinvalid hbare hsame]
  cases rulesOf bare settings.root settings.ignoreFile with
  | error e => rfl
  | ok rules => cases globs settings.ignorePatterns <;> rfl

/-- Without a given file there are no rules for a faulty file in the root to be put in front of. -/
theorem ofSettings_of_hasInvalidLine_of_none (hnone : settings.ignoreFile = none) :
    ofSettings fs settings = ofSettings bare settings := by
  have hrules : rulesOf bare settings.root settings.ignoreFile = .ok none := by
    simp only [rulesOf, hnone, hbare]
    rfl
  rw [ofSettings_eq, ofSettings_eq, rulesOf_of_hasInvalidLine hread hinvalid hbare hsame, hrules]
  rfl

end InRoot

end PathFilter

/-- For every file in the root with an invalid line, the filter is that of the same settings without
the file if no ignore file is given. If one is given, the rules of the good lines count in front of
its own rules. Then the answers differ for exactly those paths that are left to the rules and about
which the good lines decide first, where the given file says nothing, and against it. -/
theorem faulty_root_file_counts_ahead {fs bare : FileSystem} {settings : ScanSettings}
    {content : ByteArray} (hread : fs.read (settings.root.join ".gitignore") = .ok content)
    (hinvalid : IgnoreFile.HasInvalidLine content)
    (hbare : bare.contains (settings.root.join ".gitignore") = false)
    (hsame : ∀ path ∈ settings.ignoreFile, bare.read path = fs.read path) :
    (settings.ignoreFile = none →
      PathFilter.ofSettings fs settings = PathFilter.ofSettings bare settings) ∧
    PathFilter.ofSettings fs settings = (PathFilter.ofSettings bare settings).map
      (PathFilter.withRulesAhead (IgnoreFile.ofContent content).rules) ∧
    ∀ filter filter', PathFilter.ofSettings bare settings = .ok filter →
      PathFilter.ofSettings fs settings = .ok filter' → ∀ path isDirectory,
      (filter'.ignores path isDirectory ≠ filter.ignores path isDirectory ↔
        filter.asksRules path = true ∧ ∃ r ∈ filter.rules,
          IgnoreRules.Overrules (IgnoreFile.ofContent content).rules r.rules
            (r.places (filter.seenFrom path) isDirectory)) := by
  have hfilter := PathFilter.ofSettings_of_hasInvalidLine hread hinvalid hbare hsame
  refine ⟨PathFilter.ofSettings_of_hasInvalidLine_of_none hread hinvalid hbare hsame, hfilter, ?_⟩
  intro filter filter' hbareFilter hfsFilter path isDirectory
  rw [hfilter, hbareFilter] at hfsFilter
  obtain rfl := Except.ok.inj hfsFilter
  exact PathFilter.ignores_withRulesAhead_ne_iff _ filter path isDirectory

/-- A good line and a bad one. -/
def faultyContent : ByteArray := "a.elv\n\x7b\n".toUTF8

/-- A file system whose current directory holds an ignore file and what is given. -/
def besideGiven (entries : List (String × Node)) : FileSystem :=
  ⟨[("w", .directory (("given", .file "b.elv\n".toUTF8) :: entries))], ["w"]⟩

/-- The settings of a scan of the current directory with this ignore file. -/
def givenSettings : ScanSettings := { root := ⟨["."]⟩, ignoreFile := some ⟨[".", "given"]⟩ }

/-- The filter of these settings without a file in the root. -/
def givenFilter : PathFilter where
  root := ⟨["."]⟩
  rules := some ⟨⟨["."]⟩, (IgnoreFile.ofContent "b.elv\n".toUTF8).rules⟩
  customGlobs := []
  defaultGlobs := PathFilter.readDefaults
  includeHidden := false

/-- The brace is never closed, so the second line is invalid. -/
theorem hasInvalidLine_faultyContent : IgnoreFile.HasInvalidLine faultyContent := by
  refine ⟨1, [123], by decide +kernel, ?_⟩
  intro line hline
  have htext : IgnoreFile.lineText? 2 [123] = some ['\x7b'] := by decide +kernel
  obtain rfl := Option.some.inj (htext.symm.trans hline)
  have hbad : (IgnoreRule.parse ['\x7b']).isOk = false := by decide +kernel
  cases hparse : IgnoreRule.parse ['\x7b'] with
  | error e => exact ⟨e, rfl⟩
  | ok rule =>
    rw [hparse] at hbad
    cases hbad

/-- The given file can be read, whatever stands beside it. -/
theorem read_given (entries : List (String × Node)) :
    (besideGiven entries).read ⟨[".", "given"]⟩ = .ok "b.elv\n".toUTF8 :=
  FileSystem.read_dot (by decide) (by decide) rfl

/-- The faulty file can be read from the root. -/
theorem read_faulty :
    (besideGiven [(".gitignore", .file faultyContent)]).read ⟨[".", ".gitignore"]⟩ =
      .ok faultyContent :=
  FileSystem.read_dot (by decide) (by decide) rfl

/-- Without further entries there is no ignore file in the root. -/
theorem contains_besideGiven_nil : (besideGiven []).contains ⟨[".", ".gitignore"]⟩ = false :=
  FileSystem.contains_dot_of_missing (by decide) (by decide) rfl

/-- Without a file in the root, the rules are those of the given file. -/
theorem ofSettings_givenSettings :
    PathFilter.ofSettings (besideGiven []) givenSettings = .ok givenFilter := by
  have hmissing : (besideGiven []).contains ((⟨["."]⟩ : Path).join ".gitignore") = false :=
    contains_besideGiven_nil
  have hload : IgnoreFile.load (besideGiven []) ⟨[".", "given"]⟩ =
      IgnoreFile.ofContent "b.elv\n".toUTF8 := by
    rw [IgnoreFile.load, read_given]
  have hclean : (IgnoreFile.ofContent "b.elv\n".toUTF8).faults.isEmpty = true := by decide +kernel
  have hrules : PathFilter.rulesOf (besideGiven []) ⟨["."]⟩ (some ⟨[".", "given"]⟩) =
      .ok givenFilter.rules := by
    simp only [PathFilter.rulesOf, hmissing, hload, hclean, if_true]
    rfl
  rw [PathFilter.ofSettings_eq, givenSettings, hrules]
  rfl

/-- The faulty file leaves the content of the given file as it is. -/
theorem read_besideGiven_eq : ∀ path ∈ givenSettings.ignoreFile, (besideGiven []).read path =
    (besideGiven [(".gitignore", .file faultyContent)]).read path := by
  intro path hpath
  obtain rfl := Option.some.inj hpath
  rw [read_given, read_given]

/-- With the faulty file in the root, its rules come ahead of the given ones. -/
theorem ofSettings_faulty :
    PathFilter.ofSettings (besideGiven [(".gitignore", .file faultyContent)]) givenSettings =
      .ok (givenFilter.withRulesAhead (IgnoreFile.ofContent faultyContent).rules) := by
  rw [PathFilter.ofSettings_of_hasInvalidLine read_faulty hasInvalidLine_faultyContent
    contains_besideGiven_nil read_besideGiven_eq, ofSettings_givenSettings]
  rfl

/-- Beside a given file, the good line of a faulty file in the root takes effect. -/
theorem faulty_root_file_ignores_script : ∃ filter filter',
    PathFilter.ofSettings (besideGiven []) givenSettings = .ok filter ∧
    PathFilter.ofSettings (besideGiven [(".gitignore", .file faultyContent)]) givenSettings =
      .ok filter' ∧
    filter.ignores ⟨["a.elv"]⟩ false = false ∧ filter'.ignores ⟨["a.elv"]⟩ false = true :=
  ⟨givenFilter, _, ofSettings_givenSettings, ofSettings_faulty, by decide +kernel,
    by decide +kernel⟩

/-- By itself the faulty file changes nothing. Beside the given file it decides about a script. -/
theorem faulty_root_file_decides_first :
    (besideGiven [(".gitignore", .file faultyContent)]).read ⟨[".", ".gitignore"]⟩ =
        .ok faultyContent ∧
      IgnoreFile.HasInvalidLine faultyContent ∧
      (besideGiven []).contains ⟨[".", ".gitignore"]⟩ = false ∧
      PathFilter.ofSettings (besideGiven [(".gitignore", .file faultyContent)])
        { root := ⟨["."]⟩ } = PathFilter.ofSettings (besideGiven []) { root := ⟨["."]⟩ } ∧
      (givenFilter.asksRules ⟨["a.elv"]⟩ = true ∧ ∃ r ∈ givenFilter.rules,
        IgnoreRules.Overrules (IgnoreFile.ofContent faultyContent).rules r.rules
          (r.places (givenFilter.seenFrom ⟨["a.elv"]⟩) false)) := by
  have hnone : ∀ path ∈ ({ root := ⟨["."]⟩ } : ScanSettings).ignoreFile, (besideGiven []).read path =
      (besideGiven [(".gitignore", .file faultyContent)]).read path :=
    fun path hpath => absurd hpath (Option.not_mem_none path)
  obtain ⟨halone, -, -⟩ := faulty_root_file_counts_ahead read_faulty hasInvalidLine_faultyContent
    contains_besideGiven_nil hnone
  obtain ⟨-, -, hdiffer⟩ := faulty_root_file_counts_ahead read_faulty hasInvalidLine_faultyContent
    contains_besideGiven_nil read_besideGiven_eq
  exact ⟨read_faulty, hasInvalidLine_faultyContent, contains_besideGiven_nil, halone rfl,
    (hdiffer _ _ ofSettings_givenSettings ofSettings_faulty ⟨["a.elv"]⟩ false).mp (by decide +kernel)⟩

end ElvishOutline
