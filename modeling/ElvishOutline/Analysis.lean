import ElvishOutline.Breadcrumb
import ElvishOutline.Fold

/-!
# The analysis of a script

All passes together: the tokens are checked, cut into statements, and give the outline and the fold
regions, with counts of what was found.
-/

namespace ElvishOutline

open Text (LineTable byteLength lineFeedCount)

/-- Why a script could not be analysed. -/
inductive AnalysisError where
  | contract (cause : TokenStreamError)
  deriving DecidableEq, Repr

/-- The text of the error. -/
def AnalysisError.message : AnalysisError → String
  | .contract cause => "Token contract violated: " ++ cause.message

/-- A landmark with its first and last line, counted from one. -/
structure OutlineEntry where
  landmark : Landmark
  startLine : Nat
  endLine : Nat
  deriving DecidableEq, Repr

/-- Counts of the statements of a script; `byKind` maps keywords, in order, to their numbers. -/
structure StatementCounts where
  total : Nat
  classified : Nat
  blank : Nat
  byKind : List (String × Nat)
  deriving DecidableEq, Repr

/-- What is known about a script. -/
structure ScriptAnalysis where
  path : String := ""
  absolutePath : Option String := none
  totalLines : Nat
  tokenCount : Nat
  statements : StatementCounts
  outline : List OutlineEntry
  folds : List Fold
  deriving DecidableEq, Repr

/-- The kinds of landmarks, ordered by the bytes of their keywords. -/
def LandmarkKind.byKeyword : List LandmarkKind :=
  [.block .catchBlock, .block .elifBlock, .block .elseBlock, .block .finallyBlock, .block .function,
    .block .forLoop, .block .ifBlock, .block .tryBlock, .block .whileLoop, .lambda]

/-- The counts of statements and landmarks. Keywords that do not occur are left out. -/
def StatementCounts.of (statements : List Statement) (found : List Landmark) :
    StatementCounts where
  total := statements.length
  classified := found.length
  blank := statements.countP (·.isBlank)
  byKind := LandmarkKind.byKeyword.filterMap fun kind =>
    let count := found.countP (·.kind = kind)
    if count = 0 then none else some (kind.keyword, count)

/-- The outline entry of a landmark. Its last line is that of its last byte, so that a line end at
the close of the statement does not count. -/
def outlineEntry (index : LineTable) (landmark : Landmark) :
    Except TokenStreamError OutlineEntry := do
  let startLine ← lineOf index landmark.start
  let endLine ← lineOf index (max (landmark.stop - 1) landmark.start)
  return { landmark, startLine := startLine + 1, endLine := endLine + 1 }

/-- The outline entries of a list of landmarks. -/
def outlineEntries (index : LineTable) : List Landmark → Except TokenStreamError (List OutlineEntry)
  | [] => .ok []
  | landmark :: rest => do
    let entry ← outlineEntry index landmark
    let later ← outlineEntries index rest
    return entry :: later

/-- The analysis of a script with the tokens that some lexer made of it. -/
def analyzeTokens (source : String) (tokens : List Token) (options : AnalysisOptions) :
    Except AnalysisError ScriptAnalysis :=
  let text := source.toList
  let passes : Except TokenStreamError ScriptAnalysis := do
    checkTokens tokens (byteLength text)
    let index := LineTable.ofText text
    let statements := segment tokens
    let found := landmarks statements
    let outline ← outlineEntries index found
    let folds ← findFolds tokens index options
    return {
      totalLines := lineFeedCount text
      tokenCount := tokens.length
      statements := .of statements found
      outline
      folds }
  passes.mapError .contract

/-- The analysis of a script. -/
def analyze (source : String) (options : AnalysisOptions) : Except AnalysisError ScriptAnalysis :=
  analyzeTokens source (tokenize source) options

namespace ScriptAnalysis

/-- The analysis with the path that it was found at. -/
def withPath (a : ScriptAnalysis) (path : String) (absolutePath : Option String) : ScriptAnalysis :=
  { a with path, absolutePath }

/-- The number of fold regions with the given delimiters. -/
def foldsWith (a : ScriptAnalysis) (delimiter : FoldDelimiter) : Nat :=
  a.folds.countP (·.delimiter = delimiter)

/-- The lines hidden by collapsing regions, after one that was collapsed, without those inside the
last collapsed one. -/
def hiddenAfter (outer : Option Fold) : List Fold → Nat
  | [] => 0
  | fold :: rest =>
    if outer.any (·.contains fold) then hiddenAfter outer rest
    else fold.hiddenLines + hiddenAfter (some fold) rest

/-- The number of lines hidden when all regions are collapsed. -/
def linesHidden (a : ScriptAnalysis) : Nat := hiddenAfter none a.folds

end ScriptAnalysis

end ElvishOutline
