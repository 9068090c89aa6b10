import ElvishOutline.CommandLine.Arguments

/-!
# The command line

A request is answered with a text on standard output or in a file, or fails with a message and the
chain of its causes on standard error.
-/

namespace ElvishOutline.CommandLine

/-- Why a request failed: what was to be done, and the causes, the nearest first. -/
structure Failure where
  message : String
  causes : List String := []
  deriving DecidableEq, Repr

namespace Failure

/-- Does not give a result, because of an error of a scan. -/
def ofScan (message : String) (e : ScanError) : Failure := ⟨message, e.message :: e.causes⟩

/-- A text whose lines after the first are indented. -/
def indentLines (width : Nat) (text : String) : String :=
  ("\n" ++ String.ofList (List.replicate width ' ')).intercalate (text.splitOn "\n")

/-- The causes, numbered if there are several. -/
def causeLines : List String → List String
  | [cause] => ["    " ++ indentLines 4 cause]
  | causes =>
    ((List.range causes.length).zip causes).map fun (n, cause) =>
      "    " ++ toString n ++ ": " ++ indentLines 7 cause

/-- What is written to standard error. -/
def report (f : Failure) : String :=
  let causes :=
    if f.causes.isEmpty then ""
    else "\n\nCaused by:\n" ++ "\n".intercalate (causeLines f.causes)
  "Error: " ++ f.message ++ causes ++ "\n"

end Failure

/-- The answer to a request. -/
inductive Answer where
  | survey (s : Survey)
  | file (a : ScriptAnalysis)
  | folds (a : ScriptAnalysis)
  | breadcrumb (b : Breadcrumb)
  | script (text : String)

/-- The text of an answer. A folded script is the same in all formats. -/
def Answer.text (format : ReportFormat) : Answer → String
  | survey s => Report.ofSurvey format s
  | file a => Report.ofFile format a
  | folds a => Report.ofFolds format a
  | breadcrumb b => Report.ofBreadcrumb format b
  | script text => text

/-- A file that has to exist. -/
def needFile (fs : FileSystem) (path : Path) : Except Failure Unit :=
  if fs.isFile path then .ok () else .error ⟨"File does not exist: " ++ path.toString, []⟩

/-- The answer to a request, without the time that it took. -/
def Invocation.answer (i : Invocation) (fs : FileSystem) : Except Failure Answer :=
  match i.request with
  | .scan path => do
    unless fs.isDirectory path do
      throw ⟨"Directory does not exist: " ++ path.toString, []⟩
    let filter ← (Scan.prepare fs i.settings).mapError (.ofScan "Failed to create scanner")
    return .survey (Scan.survey fs i.settings filter)
  | .file path => do
    needFile fs path
    let a ← (Scan.file fs i.settings path).mapError (.ofScan "Failed to analyze file")
    return .file a
  | .breadcrumb path line column => do
    needFile fs path
    if line = 0 then throw ⟨"Line numbers start at 1, got 0", []⟩
    let b ←
      (Scan.breadcrumb fs i.settings path line column).mapError (.ofScan "Failed to get breadcrumb")
    return .breadcrumb b
  | .folds path => do
    needFile fs path
    let a ← (Scan.file fs i.settings path).mapError (.ofScan "Failed to analyze file")
    return .folds a
  | .render path palette => do
    needFile fs path
    let r ← (Scan.rendered fs i.settings path palette).mapError (.ofScan "Failed to render file")
    return .script r.content

/-- What the program does in the end: what it writes, and its exit code. -/
structure Reply where
  exitCode : Nat
  stdout : String := ""
  stderr : String := ""
  written : Option (Path × String) := none
  deriving DecidableEq, Repr

/-- The name and version of the program. -/
def versionText : String := "elvscope " ++ Scan.version

/-- How the program is called. -/
def usageText : String := "Usage: elvscope [OPTIONS] [PATH] [COMMAND]"

/-- Delivers a text to standard output or to a file. -/
def Invocation.deliver (i : Invocation) (fs : FileSystem) (text : String) : Except Failure Reply :=
  match i.output with
  | none => .ok { exitCode := 0, stdout := text ++ "\n" }
  | some path =>
    match fs.write path text.toUTF8 with
    | .ok _ => .ok { exitCode := 0, written := some (path, text) }
    | .error e => .error ⟨"Failed to write output file", [e.message]⟩

/-- The reply of a failed request. -/
def Failure.reply (f : Failure) : Reply := { exitCode := 1, stderr := f.report }

/-- The reply when arguments make no request. -/
def Stop.reply : Stop → Reply
  | .usage => { exitCode := 2, stderr := usageText ++ "\n" }
  | .version => { exitCode := 0, stdout := versionText ++ "\n" }

/-- The reply to a request whose answer is known. -/
def Invocation.reply (i : Invocation) (fs : FileSystem) (answer : Except Failure Answer) : Reply :=
  match answer.bind fun a => i.deliver fs (a.text i.format) with
  | .ok reply => reply
  | .error failure => failure.reply

/-- The reply to arguments. -/
def run (fs : FileSystem) (arguments : List String) : Reply :=
  match parse arguments with
  | .error stop => stop.reply
  | .ok i => i.reply fs (i.answer fs)

end ElvishOutline.CommandLine
