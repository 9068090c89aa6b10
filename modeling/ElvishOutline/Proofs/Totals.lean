import Mathlib.Algebra.Order.BigOperators.Group.List
import Mathlib.Algebra.Order.Ring.Nat
import ElvishOutline.Survey
import ElvishOutline.Proofs.Counts
import ElvishOutline.Proofs.Partition
import ElvishOutline.Proofs.Totality

/-!
# Counts from statements to surveys

The counts of an analysis are taken of different lists: the statements, their landmarks, the keywords
of these, and the fold regions. They fit together because every statement holds a token, because only
the last one can hold blanks alone, and because blanks alone are no landmark. The sums of a survey
keep what each of its analyses has.
-/

namespace ElvishOutline

/-- Whether a statement holds a token that is no blank. -/
def Statement.isSignificant (s : Statement) : Bool := s.tokens.any (!·.isTrivia)

/-- What the counts of an analysis have to do with each other and with the statements. -/
structure ScriptAnalysis.AddsUp (a : ScriptAnalysis) (statements : List Statement) : Prop where
  byKind : (a.statements.byKind.map Prod.snd).sum = a.statements.classified
  outline : a.statements.classified = a.outline.length
  blank : a.statements.blank = 0 ∨ a.statements.blank = 1
  classified_add_blank : a.statements.classified + a.statements.blank ≤ a.statements.total
  significant : a.statements.total - a.statements.blank = statements.countP (·.isSignificant)

/-- What the sums of a survey have to do with each other and with the analyses. -/
structure SurveyStats.AddsUp (stats : SurveyStats) (analyses : List ScriptAnalysis) : Prop where
  files : stats.files = analyses.length
  folds : stats.folds = stats.braceFolds + stats.bracketFolds
  outlineEntries : stats.outlineEntries = (analyses.map (·.statements.classified)).sum
  outlineEntries_le : stats.outlineEntries ≤ stats.statements
  statements_le : stats.statements ≤ stats.tokens

section Kinds

/-- A kind that is not among others has its landmarks besides theirs. -/
theorem countP_mem_cons {k : LandmarkKind} {kinds : List LandmarkKind} (hk : k ∉ kinds)
    (found : List Landmark) :
    found.countP (·.kind ∈ k :: kinds) =
      found.countP (·.kind = k) + found.countP (·.kind ∈ kinds) := by
  induction found with
  | nil => rfl
  | cons l found ih =>
    rw [List.countP_cons, List.countP_cons, List.countP_cons, ih]
    by_cases hkind : l.kind = k
    · simp only [hkind, hk, List.mem_cons_self, decide_true, decide_false, if_true]
      simp only [Bool.false_eq_true, if_false]
      omega
    · simp only [List.mem_cons, hkind, false_or, decide_false, Bool.false_eq_true, if_false]
      omega

/-- The numbers under the keywords of different kinds are together that of the landmarks with these
kinds. -/
theorem sum_counts {kinds : List LandmarkKind} (hkinds : kinds.Nodup) (found : List Landmark) :
    ((kinds.filterMap fun kind =>
        let count := found.countP (·.kind = kind)
        if count = 0 then none else some (kind.keyword, count)).map Prod.snd).sum =
      found.countP (·.kind ∈ kinds) := by
  induction kinds with
  | nil => simp
  | cons k kinds ih =>
    obtain ⟨hk, hrest⟩ := List.nodup_cons.mp hkinds
    rw [countP_mem_cons hk, ← ih hrest, List.filterMap_cons]
    by_cases hcount : found.countP (·.kind = k) = 0
    · simp only [hcount, if_true, Nat.zero_add]
    · simp only [hcount, if_false, List.map_cons, List.sum_cons]

/-- The counts by keyword add up to the number of landmarks. -/
theorem sum_byKind (statements : List Statement) (found : List Landmark) :
    ((StatementCounts.of statements found).byKind.map Prod.snd).sum = found.length := by
  rw [StatementCounts.of, sum_counts (by decide), List.countP_eq_length]
  intro l _
  exact decide_eq_true l.kind.mem_byKeyword

end Kinds

section Statements

variable (tokens : List Token)

/-- Every statement takes a token. -/
theorem length_segment_le : (segment tokens).length ≤ tokens.length := by
  induction tokens using segment.induct with
  | case1 =>
    rw [segment]
    exact Nat.le_refl 0
  | case2 t ts ih =>
    have hafter := length_afterStatement_lt t ts
    rw [segment, List.length_cons]
    omega

/-- Only the last statement can hold blanks alone. -/
theorem countP_isBlank_le_one : (segment tokens).countP (·.isBlank) ≤ 1 := by
  have hahead : (segment tokens).dropLast.countP (·.isBlank) = 0 := by
    rw [List.countP_eq_zero]
    intro s hs hblank
    exact (endsBalanced_of_mem_dropLast hs).ne_nil (List.isEmpty_iff.mp hblank)
  rcases List.eq_nil_or_concat' (segment tokens) with hnil | ⟨ahead, last, hlast⟩
  · rw [hnil]
    exact Nat.zero_le 1
  · rw [hlast, List.dropLast_concat] at hahead
    rw [hlast, List.countP_append, hahead, Nat.zero_add]
    exact List.countP_le_length

/-- A statement holds blanks alone, or a token that is none. -/
theorem Statement.isSignificant_eq {s : Statement} (hs : s.IsWellCut) :
    s.isSignificant = !s.isBlank := by
  have hleading : s.leading.any (!·.isTrivia) = false := by
    rw [List.any_eq_false]
    intro t ht
    rw [hs.leading t ht]
    exact Bool.false_ne_true
  rw [isSignificant, tokens, List.any_append, hleading, Bool.false_or, isBlank]
  cases hbody : s.body with
  | nil => rfl
  | cons t ts =>
    have hhead := hs.head_body t (by rw [hbody]; rfl)
    rw [List.any_cons, hhead]
    rfl

/-- The statements are those that hold blanks alone and those that hold more. -/
theorem length_segment_eq :
    (segment tokens).length =
      (segment tokens).countP (·.isBlank) + (segment tokens).countP (·.isSignificant) := by
  rw [List.length_eq_countP_add_countP (·.isBlank)]
  congr 1
  apply List.countP_congr
  intro s hs
  rw [Statement.isSignificant_eq (isWellCut_of_mem_segment hs)]
  simp

/-- A landmark has a body. -/
theorem Statement.isBlank_of_landmark? {s : Statement} (h : s.landmark?.isSome = true) :
    s.isBlank = false := by
  obtain ⟨l, hl⟩ := Option.isSome_iff_exists.mp h
  obtain ⟨first, hfirst, -⟩ := Statement.exists_of_landmark? hl
  exact List.isEmpty_eq_false_iff.mpr (List.ne_nil_of_mem hfirst)

/-- There are no more landmarks than statements that hold more than blanks. -/
theorem length_landmarks_le :
    (landmarks (segment tokens)).length ≤ (segment tokens).countP (·.isSignificant) := by
  rw [landmarks_eq_filterMap, List.length_filterMap_eq_countP]
  apply List.countP_mono_left
  intro s hs hlandmark
  rw [Statement.isSignificant_eq (isWellCut_of_mem_segment hs),
    Statement.isBlank_of_landmark? hlandmark]
  rfl

end Statements

/-- The counts of an analysis add up, for tokens of any origin. -/
theorem addsUp_analysisOf (source : String) (tokens : List Token) (options : AnalysisOptions) :
    (analysisOf source tokens options).AddsUp (segment tokens) := by
  have hall := length_segment_eq tokens
  have hblank := countP_isBlank_le_one tokens
  have hfound := length_landmarks_le tokens
  refine ⟨sum_byKind _ _, (List.length_map _).symm, ?_, ?_, ?_⟩
  · simp only [analysisOf, StatementCounts.of]
    omega
  · simp only [analysisOf, StatementCounts.of]
    omega
  · simp only [analysisOf, StatementCounts.of]
    omega

/-- Where a script was found makes no difference to its counts. -/
theorem ScriptAnalysis.AddsUp.withPath {a : ScriptAnalysis} {statements : List Statement}
    (h : a.AddsUp statements) (path : String) (absolutePath : Option String) :
    (a.withPath path absolutePath).AddsUp statements :=
  ⟨h.byKind, h.outline, h.blank, h.classified_add_blank, h.significant⟩

section Sums

/-- A total over scripts is the sum of their counts. -/
theorem totalOf_eq_sum (count : ScriptAnalysis → Nat) (files : List ScriptAnalysis) :
    totalOf count files = (files.map count).sum := by
  induction files with
  | nil => rfl
  | cons file rest ih => rw [totalOf, ih, List.map_cons, List.sum_cons]

/-- A region has braces or brackets. -/
theorem length_folds_eq (a : ScriptAnalysis) :
    a.folds.length = a.foldsWith .brace + a.foldsWith .bracket := by
  rw [List.length_eq_countP_add_countP (·.delimiter = .brace)]
  simp only [ScriptAnalysis.foldsWith]
  congr 1
  apply List.countP_congr
  intro f _
  cases f.delimiter <;> decide

/-- The sums over analyses add up if the counts of each do and each has a token for every
statement. -/
theorem addsUp_of_forall_addsUp {files : List ScriptAnalysis} (skipped : Nat)
    (hfiles : ∀ file ∈ files, (∃ statements, file.AddsUp statements) ∧
      file.statements.total ≤ file.tokenCount) :
    (SurveyStats.of files skipped).AddsUp files := by
  simp only [SurveyStats.of, totalOf_eq_sum]
  refine ⟨rfl, ?_, ?_, ?_, ?_⟩
  · rw [← List.sum_map_add]
    exact congrArg List.sum (List.map_congr_left fun file _ => length_folds_eq file)
  · refine congrArg List.sum (List.map_congr_left fun file hfile => ?_)
    obtain ⟨⟨statements, hadds⟩, -⟩ := hfiles file hfile
    exact hadds.outline.symm
  · refine List.sum_le_sum fun file hfile => ?_
    obtain ⟨⟨statements, hadds⟩, -⟩ := hfiles file hfile
    have houtline := hadds.outline
    have hroom := hadds.classified_add_blank
    omega
  · exact List.sum_le_sum fun file hfile => (hfiles file hfile).2

end Sums

/-- The counts of every script add up. The numbers by kind make the number of landmarks, which is the
length of the outline. At most one statement holds blanks alone, and besides it there are the statements
with a token that is no blank, which include the landmarks. The sums of analyses add up as well,
whatever paths the scripts were found at: there is one analysis to a file, each region has braces or
brackets, and there are no more landmarks than statements and no more statements than tokens. -/
theorem counts_add_up :
    (∀ source options, ∃ a, analyze source options = .ok a ∧
      a.AddsUp (segment (tokenize source))) ∧
      ∀ (files : List ScriptAnalysis) (skipped : Nat),
        (∀ file ∈ files, ∃ source options a path absolutePath, analyze source options = .ok a ∧
          file = a.withPath path absolutePath) →
        (SurveyStats.of files skipped).AddsUp files := by
  constructor
  · intro source options
    exact ⟨_, analyze_eq_ok source options, addsUp_analysisOf source (tokenize source) options⟩
  · intro files skipped hfiles
    apply addsUp_of_forall_addsUp
    intro file hfile
    obtain ⟨source, options, a, path, absolutePath, hanalyze, rfl⟩ := hfiles file hfile
    rw [analyze_eq_ok] at hanalyze
    obtain rfl := Except.ok.inj hanalyze
    have hadds := addsUp_analysisOf source (tokenize source) options
    exact ⟨⟨_, hadds.withPath path absolutePath⟩, length_segment_le (tokenize source)⟩

/-- A function and a list on two lines each, with blanks behind them. -/
def functionAndList : String := "fn f \x7b\n\x7d\nput [\n]\n \n"

/-- The blanks are a statement of their own, and the sums over the script at two paths add up. -/
theorem counts_of_functionAndList :
    ∃ a, analyze functionAndList {} = .ok a ∧ a.statements.blank = 1 ∧ a.foldsWith .bracket = 1 ∧
      a.AddsUp (segment (tokenize functionAndList)) ∧
      (SurveyStats.of [a, a.withPath "lib/a.elv" none] 1).AddsUp
        [a, a.withPath "lib/a.elv" none] := by
  obtain ⟨hcounts, hsums⟩ := counts_add_up
  obtain ⟨a, ha, hadds⟩ := hcounts functionAndList {}
  have hanalysis : a = analysisOf functionAndList (tokenize functionAndList) {} := by
    rw [analyze_eq_ok] at ha
    exact (Except.ok.inj ha).symm
  refine ⟨a, ha, ?_, ?_, hadds, hsums _ 1 ?_⟩
  · rw [hanalysis]
    decide +kernel
  · rw [hanalysis]
    decide +kernel
  · intro file hfile
    rcases List.mem_pair.mp hfile with rfl | rfl
    · exact ⟨functionAndList, {}, file, file.path, file.absolutePath, ha, rfl⟩
    · exact ⟨functionAndList, {}, a, _, _, ha, rfl⟩

end ElvishOutline
