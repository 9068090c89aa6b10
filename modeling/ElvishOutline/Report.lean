import ElvishOutline.Data.Schema
import ElvishOutline.Data.Yaml
import ElvishOutline.Decimal.Fixed
import ElvishOutline.Rendering

/-!
# Reports

Results are written in one of four formats: JSON, YAML, coloured text for a terminal, and a plain
summary. The first two write the structured form, the others have a text for each sort of result.
-/

namespace ElvishOutline

/-- The formats of reports. -/
inductive ReportFormat where
  | json | yaml | ansi | summary
  deriving DecidableEq, Repr

/-- Why a result could not be written. -/
inductive FormatError where
  | unknownFormat (name : String)
  deriving DecidableEq, Repr

/-- The text of the error. -/
def FormatError.message : FormatError → String
  | .unknownFormat name => "Unknown output format: " ++ name

/-- The format with the given name, whatever its case; some formats have two names. -/
def ReportFormat.ofName (name : String) : Except FormatError ReportFormat :=
  match String.ofList (name.toList.map Char.toLower) with
  | "json" => .ok json
  | "yaml" => .ok yaml
  | "yml" => .ok yaml
  | "ansi" => .ok ansi
  | "summary" => .ok summary
  | "text" => .ok summary
  | _ => .error (.unknownFormat name)

namespace Report

/-- Ends a style. -/
def reset : String := sgr "0"
/-- Bold text. -/
def bold : String := sgr "1"
/-- Faint text. -/
def dim : String := sgr "2"

/-- The colour of a landmark. -/
def landmarkColor : LandmarkKind → String
  | .block .function => sgr "96"
  | .lambda => sgr "95"
  | .block .tryBlock | .block .catchBlock | .block .finallyBlock => sgr "33"
  | _ => dim

/-- Speeds have two places. -/
def speed (x : Binary64) : String := String.ofList (x.fixed 2)

/-- The outline of a script, coloured. -/
def fileAnsi (a : ScriptAnalysis) : String :=
  let entry (e : OutlineEntry) : String :=
    "   " ++ landmarkColor e.landmark.kind ++ e.landmark.label ++ reset ++ " " ++ dim ++
      s!":{e.startLine}-{e.endLine}" ++ reset ++ "\n"
  bold ++ sgr "92" ++ a.path ++ reset ++ " " ++ dim ++
    s!"({a.totalLines} lines, {a.folds.length} folds)" ++ reset ++ "\n" ++
    String.join (a.outline.map entry) ++ "\n"

/-- The outline of a script with its counts. -/
def fileSummary (a : ScriptAnalysis) : String :=
  let entry (e : OutlineEntry) : String := s!"  {e.landmark.label} ({e.startLine}:{e.endLine})\n"
  s!"File: {a.path}\n" ++
    s!"Lines: {a.totalLines}\n" ++
    s!"Tokens: {a.tokenCount}\n" ++
    s!"Statements: {a.statements.total} ({a.statements.classified} classified)\n" ++
    s!"Folds: {a.folds.length} ({a.linesHidden} lines hidden when collapsed)\n" ++
    "\nOutline:\n" ++ String.join (a.outline.map entry)

/-- The fold regions of a script, coloured. -/
def foldsAnsi (a : ScriptAnalysis) : String :=
  let color : FoldDelimiter → String
    | .brace => sgr "96"
    | .bracket => sgr "36"
  let entry (f : Fold) : String :=
    "   " ++ dim ++ s!"{f.startLine + 1}-{f.endLine + 1}" ++ reset ++ " " ++ color f.delimiter ++
      f.placeholder ++ reset ++ "\n"
  bold ++ a.path ++ reset ++ "\n" ++ String.join (a.folds.map entry)

/-- The fold regions of a script, one a line. -/
def foldsSummary (a : ScriptAnalysis) : String :=
  String.join (a.folds.map fun f =>
    s!"{f.startLine + 1}-{f.endLine + 1} {f.placeholder} {f.group}\n")

/-- A breadcrumb, coloured. -/
def breadcrumbAnsi (b : Breadcrumb) : String :=
  if b.trail.isEmpty then dim ++ "(top level)" ++ reset
  else
    (" " ++ dim ++ ">" ++ reset ++ " ").intercalate
      (b.trail.map fun m => landmarkColor m.kind ++ m.label ++ reset)

/-- A survey, coloured. -/
def surveyAnsi (s : Survey) : String :=
  let counted (name : String) (n : Nat) : String := bold ++ name ++ ":" ++ reset ++ s!" {n}"
  "\n" ++ bold ++ sgr "44" ++ "  Elvish Scan Results  " ++ reset ++ reset ++ "\n\n" ++
    bold ++ "Root:" ++ reset ++ " " ++ s.root ++ "\n\n" ++
    "  ".intercalate
      [counted "Files" s.stats.files, counted "Lines" s.stats.lines,
        counted "Outline" s.stats.outlineEntries, counted "Folds" s.stats.folds] ++ "\n\n" ++
    String.join (s.files.map fileAnsi) ++
    (if 0 < s.stats.skipped then sgr "31" ++ s!"{s.stats.skipped} file(s) skipped" ++ reset ++ "\n"
     else "") ++
    "\n" ++ dim ++
    s!"Scan completed in {s.metadata.durationMs}ms ({speed s.metadata.filesPerSecond} files/sec)" ++
    reset ++ "\n"

/-- The scripts with the most fold regions: at most five, the earlier first among equals. -/
def topFiles (files : List ScriptAnalysis) : List ScriptAnalysis :=
  ((files.filter (!·.folds.isEmpty)).mergeSort fun a b => b.folds.length ≤ a.folds.length).take 5

/-- A survey in plain text. -/
def surveySummary (s : Survey) : String :=
  let top := topFiles s.files
  let entry (a : ScriptAnalysis) : String :=
    s!"  {a.path} ({a.folds.length} folds, {a.totalLines} lines)\n"
  "Elvish Scan Results\n===================\n\n" ++
    s!"Root: {s.root}\n" ++
    s!"Total Files: {s.stats.files}\n" ++
    s!"Total Lines: {s.stats.lines}\n" ++
    s!"Total Statements: {s.stats.statements}\n" ++
    s!"Outline Entries: {s.stats.outlineEntries}\n" ++
    s!"Fold Regions: {s.stats.folds} (braces: {s.stats.braceFolds}, brackets: " ++
    s!"{s.stats.bracketFolds})\n" ++
    (if 0 < s.stats.skipped then s!"\nSkipped files: {s.stats.skipped}\n" else "") ++
    (if top.isEmpty then "" else "\nTop files by folds:\n" ++ String.join (top.map entry)) ++
    s!"\nScan Duration: {s.metadata.durationMs}ms\n" ++
    s!"Processing Speed: {speed s.metadata.filesPerSecond} files/sec\n"

/-- A value in one of the structured formats, or a text made for the others. -/
def choose (format : ReportFormat) (value : Value) (ansi summary : String) : String :=
  match format with
  | .json => Json.print .pretty value
  | .yaml => Yaml.print value
  | .ansi => ansi
  | .summary => summary

/-- The report on a survey. -/
def ofSurvey (format : ReportFormat) (s : Survey) : String :=
  choose format s.toValue (surveyAnsi s) (surveySummary s)

/-- The report on a script. -/
def ofFile (format : ReportFormat) (a : ScriptAnalysis) : String :=
  choose format a.toValue (fileAnsi a) (fileSummary a)

/-- The report on the fold regions of a script. -/
def ofFolds (format : ReportFormat) (a : ScriptAnalysis) : String :=
  choose format (.list (a.folds.map Fold.toValue)) (foldsAnsi a) (foldsSummary a)

/-- The report on a breadcrumb. -/
def ofBreadcrumb (format : ReportFormat) (b : Breadcrumb) : String :=
  choose format b.toValue (breadcrumbAnsi b) b.path

end Report

end ElvishOutline
