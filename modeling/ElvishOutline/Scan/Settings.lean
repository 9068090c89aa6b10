import ElvishOutline.Fold
import ElvishOutline.IgnoreRules

/-!
# Scan settings

What is scanned, which files are passed over, and how the scripts are analysed.
-/

namespace ElvishOutline

/-- The settings of a scan. -/
structure ScanSettings where
  root : Path
  /-- Glob patterns for paths relative to the root. -/
  ignorePatterns : List String := []
  ignoreFile : Option Path := none
  threads : Nat := 1
  /-- The size in bytes above which a script is passed over. -/
  maxFileSize : Nat := 10 * 1024 * 1024
  followLinks : Bool := false
  includeHidden : Bool := false
  analysis : AnalysisOptions := ⟨false, .uniform⟩

/-- Why settings cannot be used. -/
inductive SettingsError where
  | invalidGlob (pattern : String) (cause : GlobError)
  | noThreads
  | ignoreFileNotFound (path : Path)
  /-- An ignore file has the given faults. -/
  | badIgnoreFile (path : Path) (faults : String)
  deriving DecidableEq, Repr

/-- The text of the error. -/
def SettingsError.message : SettingsError → String
  | .invalidGlob pattern cause => "Invalid glob pattern: " ++ cause.message pattern
  | .noThreads => "Invalid configuration: thread count must be at least 1"
  | .ignoreFileNotFound path =>
    "Invalid configuration: ignore file not found: " ++ path.toString
  | .badIgnoreFile path faults =>
    "Invalid configuration: cannot load ignore file " ++ path.toString ++ ": " ++ faults

/-- Checks that a scan needs a thread and that its ignore file is a file. -/
def ScanSettings.check (settings : ScanSettings) (fs : FileSystem) : Except SettingsError Unit :=
  if settings.threads = 0 then .error .noThreads
  else
    match settings.ignoreFile with
    | some path => if fs.isFile path then .ok () else .error (.ignoreFileNotFound path)
    | none => .ok ()

end ElvishOutline
