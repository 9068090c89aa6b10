import ElvishOutline.Scan.Walk
import ElvishOutline.Rendering
import ElvishOutline.Survey

/-!
# Scans

The analysis of all scripts below a directory, and of single files. A script that cannot be read is
counted and left out of a scan, while for a single file that is an error.
-/

namespace ElvishOutline

/-- Why a scan gave no result. -/
inductive ScanError where
  | file (cause : FileError)
  | settings (cause : SettingsError)
  | analysis (cause : AnalysisError)
  | unsupportedFile (path : Path)
  | fileTooLarge (path : Path) (size limit : Nat)
  /-- A fold region ends inside a character. -/
  | cut (cause : CutError)
  deriving DecidableEq, Repr

/-- The text of the error. -/
def ScanError.message : ScanError → String
  | .file cause => "IO error: " ++ cause.message
  | .settings cause => "Config error: " ++ cause.message
  | .analysis cause => "Analysis error: " ++ cause.message
  | .unsupportedFile path => "Not an Elvish script: " ++ path.toString
  | .fileTooLarge path size limit =>
    path.toString ++ " is " ++ toString size ++ " bytes, over the " ++ toString limit ++
      " byte limit"
  | .cut cause => cause.message

/-- The texts of the causes of an error, the nearest first. -/
def ScanError.causes : ScanError → List String
  | .file cause => [cause.message]
  | .settings cause => [cause.message]
  | .analysis (.contract cause) => [(AnalysisError.contract cause).message, cause.message]
  | _ => []

namespace Scan

/-- The version in the metadata of surveys. -/
def version : String := "0.1.0"

/-- The analysis of a script found by a scan, if it can be read, with its path from the root. -/
def analyzeFound (fs : FileSystem) (settings : ScanSettings) (path : Path) :
    Option ScriptAnalysis := do
  let source ← (fs.readText path).toOption
  let analysis ← (analyze source settings.analysis).toOption
  let relative := (path.relativeTo? settings.root).getD path
  return analysis.withPath relative.toString ((fs.canonical? path).map (·.toString))

/-- The survey of a directory. The time it took is not known here and left at zero. -/
def survey (fs : FileSystem) (settings : ScanSettings) (filter : PathFilter) : Survey :=
  let results := (findScripts fs settings filter).map (analyzeFound fs settings)
  let files := results.filterMap id
  { root := settings.root.toString
    files
    stats := .of files (results.countP (·.isNone))
    metadata := ⟨0, .zero false, "", version⟩ }

/-- The filter of a scan whose settings can be used. -/
def prepare (fs : FileSystem) (settings : ScanSettings) : Except ScanError PathFilter :=
  let checked := do
    settings.check fs
    PathFilter.ofSettings fs settings
  checked.mapError .settings

/-- The text of a script that is not too large. -/
def sourceText (fs : FileSystem) (settings : ScanSettings) (path : Path) :
    Except ScanError String := do
  unless path.isScript do throw (.unsupportedFile path)
  let node ← (fs.find path).mapError .file
  match node with
  | .file content =>
    if content.size > settings.maxFileSize then
      throw (.fileTooLarge path content.size settings.maxFileSize)
  | _ => pure ()
  (fs.readText path).mapError .file

/-- The analysis of a single file. -/
def file (fs : FileSystem) (settings : ScanSettings) (path : Path) :
    Except ScanError ScriptAnalysis := do
  let source ← sourceText fs settings path
  let analysis ← (analyze source settings.analysis).mapError .analysis
  return analysis.withPath path.toString ((fs.canonical? path).map (·.toString))

/-- The breadcrumb of a cursor in a file. -/
def breadcrumb (fs : FileSystem) (settings : ScanSettings) (path : Path) (line column : Nat) :
    Except ScanError Breadcrumb := do
  return .atCursor (← sourceText fs settings path) line column

/-- A file with its regions collapsed, and what that hides. -/
structure FoldedScript where
  path : String
  content : String
  foldCount : Nat
  linesHidden : Nat
  deriving DecidableEq, Repr

/-- A file with its regions collapsed. -/
def rendered (fs : FileSystem) (settings : ScanSettings) (path : Path) (palette : Palette) :
    Except ScanError FoldedScript := do
  let source ← sourceText fs settings path
  let analysis ← (analyze source settings.analysis).mapError .analysis
  let content ← (render palette source analysis.folds).mapError .cut
  return {
    path := path.toString
    content
    foldCount := analysis.folds.length
    linesHidden := analysis.linesHidden }

end Scan

end ElvishOutline
