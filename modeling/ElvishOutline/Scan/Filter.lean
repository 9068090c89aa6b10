import ElvishOutline.Scan.Settings

/-!
# Choosing files

A path below the root of a scan is passed over if it is hidden, if it lies in a directory of build
results or of dependencies, if one of the given patterns matches it, or if ignore files say so.
-/

namespace ElvishOutline

/-- The extension of scripts. -/
def scriptExtension : String := "elv"

/-- Whether a path names a script. The case of the extension does not matter. -/
def Path.isScript (p : Path) : Bool :=
  p.extension?.any fun ext => ext.toList.map Char.toLower = scriptExtension.toList

/-- The directories whose content is always passed over. -/
def defaultIgnoredDirectories : List String :=
  [".git", "node_modules", "target", "vendor", "dist", "build", ".cache"]

/-- The patterns that are always used. -/
def defaultIgnorePatterns : List String :=
  defaultIgnoredDirectories.map fun name => "**/" ++ name ++ "/**"

/-- Which paths a scan passes over. -/
structure PathFilter where
  root : Path
  rules : Option IgnoreRules
  customGlobs : List Glob
  defaultGlobs : List Glob
  includeHidden : Bool

namespace PathFilter

/-- In the patterns of a scan, stars and question marks also stand for slashes. -/
def dialect : GlobDialect where
  crossesSlash := true
  openClassIsLiteral := false

/-- The patterns of a list of texts, or the first bad one. -/
def globs : List String → Except SettingsError (List Glob)
  | [] => .ok []
  | pattern :: rest =>
    match Glob.parse dialect pattern with
    | .error cause => .error (.invalidGlob pattern cause)
    | .ok glob => (globs rest).map (glob :: ·)

/-- The rules of the ignore file in the root and of the given one. A faulty file in the root counts
only if another file is given, and then with the rules that could be read. -/
def rulesOf (fs : FileSystem) (root : Path) (ignoreFile : Option Path) :
    Except SettingsError (Option IgnoreRules) :=
  let inRoot := root.join ".gitignore"
  let found := if fs.contains inRoot then some (IgnoreFile.load fs inRoot) else none
  let rootRules := (found.map (·.rules)).getD []
  match ignoreFile with
  | some path =>
    let file := IgnoreFile.load fs path
    if file.faults.isEmpty then .ok (some ⟨root, rootRules ++ file.rules⟩)
    else .error (.badIgnoreFile path (file.faultMessage path))
  | none =>
    if found.any (·.faults.isEmpty) then .ok (some ⟨root, rootRules⟩) else .ok none

/-- The filter of a scan. -/
def ofSettings (fs : FileSystem) (settings : ScanSettings) : Except SettingsError PathFilter := do
  let rules ← rulesOf fs settings.root settings.ignoreFile
  let customGlobs ← globs settings.ignorePatterns
  let defaultGlobs ← globs defaultIgnorePatterns
  return { root := settings.root, rules, customGlobs, defaultGlobs,
           includeHidden := settings.includeHidden }

/-- Whether the last name of a path starts with a dot. -/
def isHidden (path : Path) : Bool :=
  path.fileName?.any fun name => name.toList.head? = some '.'

/-- Whether a path is passed over. The root never is, and ignore files have no say on paths outside
of it. -/
def ignores (filter : PathFilter) (path : Path) (isDirectory : Bool) : Bool :=
  let relative := (path.relativeTo? filter.root).getD path
  !path.same filter.root &&
    ((!filter.includeHidden && isHidden path) ||
      filter.defaultGlobs.any (·.accepts relative.toString) ||
      filter.customGlobs.any (·.accepts relative.toString) ||
      (!relative.isAbsolute && filter.rules.any (·.ignores relative isDirectory)))

end PathFilter

end ElvishOutline
