import ElvishOutline.FileSystem
import ElvishOutline.Glob.Reader
import ElvishOutline.Text.Whitespace

/-!
# Ignore files

Each line of an ignore file is a rule: a glob pattern that says which paths to ignore, or, after an
exclamation mark, which to keep. The last rule that matches a path decides. If none does, the
directories around the path are tried, the innermost first.
-/

namespace ElvishOutline

/-- A rule of an ignore file. -/
structure IgnoreRule where
  glob : Glob
  /-- Whether the paths it matches are kept. -/
  keeps : Bool
  /-- Whether it matches directories only. -/
  directoriesOnly : Bool
  deriving Repr

namespace IgnoreRule

/-- In ignore files, stars and question marks stop at slashes. -/
def dialect : GlobDialect where
  crossesSlash := false
  openClassIsLiteral := true

/-- A line without the white space at its end, unless a backslash keeps its last space. -/
def trimmed (line : List Char) : List Char :=
  if ['\\', ' '].isSuffixOf line then line else Text.trimEnd line

/-- Whether a line keeps paths, whether it is anchored at the root, and the pattern after these
marks. -/
def marks : List Char → Bool × Bool × List Char
  | '\\' :: '!' :: cs => (false, false, '!' :: cs)
  | '\\' :: '#' :: cs => (false, false, '#' :: cs)
  | '!' :: '/' :: cs => (true, true, cs)
  | '!' :: cs => (true, false, cs)
  | '/' :: cs => (false, true, cs)
  | cs => (false, false, cs)

/-- Whether a pattern is for directories only, and the pattern without the slash that says so. A
backslash before the slash goes with it. -/
def directoryMark (pattern : List Char) : Bool × List Char :=
  match pattern.reverse with
  | '/' :: '\\' :: rest => (true, rest.reverse)
  | '/' :: rest => (true, rest.reverse)
  | _ => (false, pattern)

/-- A pattern without a slash that is not anchored matches in every directory. -/
def anywhere (anchored : Bool) (pattern : List Char) : List Char :=
  if anchored || pattern.contains '/' || pattern = ['*', '*'] then pattern
  else ['*', '*', '/'] ++ pattern

/-- A pattern for everything below a directory does not match the directory itself. -/
def strictlyBelow (pattern : List Char) : List Char :=
  if ['/', '*', '*'].isSuffixOf pattern then pattern ++ ['/', '*'] else pattern

/-- The rule of a line; comments and empty lines have none. -/
def parse (line : List Char) : Except GlobError (Option IgnoreRule) :=
  if line.head? = some '#' then .ok none
  else
    let text := trimmed line
    if text.isEmpty then .ok none
    else
      let (keeps, anchored, pattern) := marks text
      let (directoriesOnly, pattern) := directoryMark pattern
      (Glob.parse dialect (String.ofList (strictlyBelow (anywhere anchored pattern)))).map
        fun glob => some { glob, keeps, directoriesOnly }

end IgnoreRule

/-- What is wrong with an ignore file: a reason, and the line it is on. -/
structure IgnoreFault where
  line : Option Nat
  reason : String
  deriving DecidableEq, Repr

/-- The text of a fault in the file with the given name. -/
def IgnoreFault.message (fault : IgnoreFault) (file : String) : String :=
  let position :=
    match fault.line with
    | some n => "line " ++ toString n ++ ": "
    | none => ""
  file ++ ": " ++ position ++ fault.reason

/-- The rules of an ignore file and its faults, both in order. -/
structure IgnoreFile where
  rules : List IgnoreRule
  faults : List IgnoreFault
  deriving Repr

namespace IgnoreFile

/-- The lines of a file: those that end in a line feed, without it and a carriage return before it,
and what is left after the last one. -/
def splitLines (line : List UInt8) : List UInt8 → List (List UInt8)
  | [] => if line.isEmpty then [] else [line.reverse]
  | b :: bs =>
    if b = 10 then (if line.head? = some 13 then line.drop 1 else line).reverse :: splitLines [] bs
    else splitLines (b :: line) bs

/-- The text of a line, without the marks of byte order at the start of the first one. -/
def lineText? (number : Nat) (bytes : List UInt8) : Option (List Char) :=
  (String.fromUTF8? ⟨bytes.toArray⟩).map fun text =>
    if number = 1 then text.toList.dropWhile (· = '\ufeff') else text.toList

/-- The rules of numbered lines. A line with a bad pattern is passed over; a line that is no text
ends the file. -/
def ofLines (number : Nat) : List (List UInt8) → IgnoreFile
  | [] => ⟨[], []⟩
  | bytes :: rest =>
    match lineText? number bytes with
    | none => ⟨[], [⟨some number, FileError.notText.message⟩]⟩
    | some line =>
      let later := ofLines (number + 1) rest
      match IgnoreRule.parse line with
      | .ok none => later
      | .ok (some rule) => { later with rules := rule :: later.rules }
      | .error e =>
        let reason := e.message (String.ofList (IgnoreRule.trimmed line))
        { later with faults := ⟨some number, reason⟩ :: later.faults }

/-- The rules of the content of a file. -/
def ofContent (content : ByteArray) : IgnoreFile := ofLines 1 (splitLines [] content.toList)

/-- The rules of the file at a path. -/
def load (fs : FileSystem) (path : Path) : IgnoreFile :=
  match fs.read path with
  | .ok content => ofContent content
  | .error .isDirectory => ⟨[], [⟨some 1, FileError.isDirectory.message⟩]⟩
  | .error e => ⟨[], [⟨none, e.message⟩]⟩

/-- The texts of all faults, in lines. -/
def faultMessage (f : IgnoreFile) (path : Path) : String :=
  "\n".intercalate (f.faults.map (·.message path.toString))

end IgnoreFile

/-- The rules for the paths below a root. -/
structure IgnoreRules where
  root : Path
  rules : List IgnoreRule
  deriving Repr

namespace IgnoreRules

/-- A text without a leading part, if it starts with it. -/
def without (start text : List Char) : List Char :=
  if start.isPrefixOf text then text.drop start.length else text

/-- The decision of a list of rules for one path: whether the last rule that matches keeps it. -/
def decision? (rules : List IgnoreRule) (path : Path) (isDirectory : Bool) : Option Bool :=
  let applies (rule : IgnoreRule) : Bool :=
    (!rule.directoriesOnly || isDirectory) && rule.glob.accepts path.toString
  (rules.reverse.find? applies).map (·.keeps)

/-- The path that rules are matched with: without a dot for the current directory, and without the
text of the root if it has more than one name. -/
def subject (r : IgnoreRules) (path : Path) : Path :=
  let text := without ['.', '/'] path.toString.toList
  let root := without ['.', '/'] r.root.toString.toList
  let isCurrent := (Path.ofString (String.ofList root)).same ⟨["."]⟩
  if !isCurrent && text.contains '/' && root.isPrefixOf text then
    .ofString (String.ofList (without ['/'] (without root text)))
  else .ofString (String.ofList text)

/-- Whether the rules ignore a path: the path itself or the innermost directory around it for which
there is a decision. -/
def ignores (r : IgnoreRules) (path : Path) (isDirectory : Bool) : Bool :=
  let subject := r.subject path
  let around := subject.ancestors.findSome? fun directory => decision? r.rules directory true
  ((decision? r.rules subject isDirectory).or around).any (!·)

end IgnoreRules

end ElvishOutline
