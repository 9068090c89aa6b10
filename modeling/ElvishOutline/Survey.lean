import ElvishOutline.Analysis
import ElvishOutline.Decimal.Binary64

/-!
# Surveys of directories

The analyses of all scripts of a directory, their sums, and how the scan went.
-/

namespace ElvishOutline

/-- Sums over the scripts of a directory. -/
structure SurveyStats where
  files : Nat
  lines : Nat
  tokens : Nat
  statements : Nat
  outlineEntries : Nat
  folds : Nat
  braceFolds : Nat
  bracketFolds : Nat
  skipped : Nat
  deriving DecidableEq, Repr

/-- The sum of a count over a list of analyses. -/
def totalOf (count : ScriptAnalysis → Nat) : List ScriptAnalysis → Nat
  | [] => 0
  | file :: rest => count file + totalOf count rest

/-- The sums of a list of analyses, with the number of scripts that could not be read. -/
def SurveyStats.of (files : List ScriptAnalysis) (skipped : Nat) : SurveyStats where
  files := files.length
  lines := totalOf (·.totalLines) files
  tokens := totalOf (·.tokenCount) files
  statements := totalOf (·.statements.total) files
  outlineEntries := totalOf (·.outline.length) files
  folds := totalOf (·.folds.length) files
  braceFolds := totalOf (·.foldsWith .brace) files
  bracketFolds := totalOf (·.foldsWith .bracket) files
  skipped

/-- How a scan went: its time, its speed, when it was made, and by which version. -/
structure SurveyMetadata where
  durationMs : Nat
  filesPerSecond : Binary64
  timestamp : String
  toolVersion : String
  deriving DecidableEq, Repr

/-- What is known about the scripts below a directory. -/
structure Survey where
  root : String
  files : List ScriptAnalysis
  stats : SurveyStats
  metadata : SurveyMetadata
  deriving DecidableEq, Repr

end ElvishOutline
