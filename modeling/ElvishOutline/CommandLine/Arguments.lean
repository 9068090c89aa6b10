import ElvishOutline.Report
import ElvishOutline.Scan

/-!
# Arguments

The options of the command line stand before or after the name of a command. Each may be given once
before it and once after it, and what stands after it counts. An option is read as soon as it is
complete, so that a question for the version is answered if nothing before it is wrong.
-/

namespace ElvishOutline.CommandLine

/-- The commands. -/
inductive Command where
  | scan | file | breadcrumb | folds | render
  deriving DecidableEq, Repr

/-- The command with the given name. -/
def Command.ofName? : String → Option Command
  | "scan" => some scan
  | "file" => some file
  | "breadcrumb" => some breadcrumb
  | "folds" => some folds
  | "render" => some render
  | _ => none

/-- Options without a value. -/
inductive Flag where
  | hidden | fast | contextualPlaceholders | verbose | ansi
  deriving DecidableEq, Repr

/-- Options with a value. -/
inductive Setting where
  | format | output | ignore | ignoreFile | threads | line | column
  deriving DecidableEq, Repr

/-- What an option can be. -/
inductive Switch where
  | flag (f : Flag)
  | setting (s : Setting)
  | version
  deriving DecidableEq, Repr

/-- The option with the given long name, before a command or after it. -/
def Switch.ofName? (command : Option Command) (name : String) : Option Switch :=
  match name, command with
  | "format", _ => some (.setting .format)
  | "output", _ => some (.setting .output)
  | "ignore", _ => some (.setting .ignore)
  | "ignore-file", _ => some (.setting .ignoreFile)
  | "threads", _ => some (.setting .threads)
  | "hidden", _ => some (.flag .hidden)
  | "fast", _ => some (.flag .fast)
  | "contextual-placeholders", _ => some (.flag .contextualPlaceholders)
  | "verbose", _ => some (.flag .verbose)
  | "line", some .breadcrumb => some (.setting .line)
  | "column", some .breadcrumb => some (.setting .column)
  | "ansi", some .render => some (.flag .ansi)
  | "version", none => some .version
  | _, _ => none

/-- The option with the given letter, before a command or after it. -/
def Switch.ofLetter? (command : Option Command) (letter : Char) : Option Switch :=
  match letter, command with
  | 'f', _ => some (.setting .format)
  | 'o', _ => some (.setting .output)
  | 'v', _ => some (.flag .verbose)
  | 'l', some .breadcrumb => some (.setting .line)
  | 'c', some .breadcrumb => some (.setting .column)
  | 'V', none => some .version
  | _, _ => none

/-- Why arguments are not a request. -/
inductive Stop where
  /-- The arguments are wrong. -/
  | usage
  /-- They ask for the version. -/
  | version
  deriving DecidableEq, Repr

/-- What was given on one side of the command. -/
structure Given where
  path : Option String := none
  flags : List Flag := []
  format : Option ReportFormat := none
  output : Option String := none
  ignore : Option (List String) := none
  ignoreFile : Option String := none
  threads : Option Nat := none
  line : Option Nat := none
  column : Option Nat := none
  deriving DecidableEq, Repr

/-- The formats that can be asked for. -/
def formatOfName? : String → Option ReportFormat
  | "json" => some .json
  | "yaml" => some .yaml
  | "ansi" => some .ansi
  | "summary" => some .summary
  | _ => none

/-- The value of a list of decimal digits, after the value of the digits before them. -/
def digits? (value : Nat) : List Char → Option Nat
  | [] => some value
  | c :: cs => if c.isDigit then digits? (value * 10 + (c.toNat - '0'.toNat)) cs else none

/-- A number of 64 bits in decimal, perhaps after a plus sign. -/
def number? (text : String) : Option Nat :=
  let written :=
    match text.toList with
    | '+' :: rest => rest
    | other => other
  if written.isEmpty then none else (digits? 0 written).filter (· < Nat.pow 2 64)

/-- A text that is not empty. -/
def nonEmpty? (text : String) : Option String := if text = "" then none else some text

/-- Fills a place that was empty. -/
def fill? {α : Type} : Option α → Option α → Option (Option α)
  | none, some value => some (some value)
  | _, _ => none

namespace Given

/-- Adds a flag that was not given before. -/
def addFlag? (g : Given) (f : Flag) : Option Given :=
  if g.flags.contains f then none else some { g with flags := f :: g.flags }

/-- Adds a setting. Its value has to be readable, and only patterns can be given more than once. -/
def add? (g : Given) (s : Setting) (value : String) : Option Given :=
  match s with
  | .format => (fill? g.format (formatOfName? value)).map fun format => { g with format }
  | .output => (fill? g.output (nonEmpty? value)).map fun output => { g with output }
  | .ignore => some { g with ignore := some (g.ignore.getD [] ++ [value]) }
  | .ignoreFile =>
    (fill? g.ignoreFile (nonEmpty? value)).map fun ignoreFile => { g with ignoreFile }
  | .threads => (fill? g.threads (number? value)).map fun threads => { g with threads }
  | .line => (fill? g.line (number? value)).map fun line => { g with line }
  | .column => (fill? g.column (number? value)).map fun column => { g with column }

/-- Adds the path. -/
def addPath? (g : Given) (path : String) : Option Given :=
  (fill? g.path (nonEmpty? path)).map fun path => { g with path }

/-- What was given before a command and after it together: the later counts. The path before a
command does not. -/
def merge (before after : Given) : Given where
  path := after.path
  flags := after.flags ++ before.flags
  format := after.format.or before.format
  output := after.output.or before.output
  ignore := after.ignore.or before.ignore
  ignoreFile := after.ignoreFile.or before.ignoreFile
  threads := after.threads.or before.threads
  line := after.line
  column := after.column

end Given

/-- What was read so far: the command with what was given before it, what is given at this side, the
setting that waits for its value, and whether options have ended. -/
structure Reading where
  command : Option (Command × Given) := none
  given : Given := {}
  pending : Option Setting := none
  optionsEnded : Bool := false

namespace Reading

/-- The command that was named. -/
def name? (r : Reading) : Option Command := r.command.map (·.1)

/-- Goes on with what was given, if nothing was wrong. -/
def update (r : Reading) (given : Option Given) : Except Stop Reading :=
  match given with
  | some given => .ok { r with given, pending := none }
  | none => .error .usage

/-- Reads a group of letters. A letter with a value takes the rest of the group, perhaps after an
equals sign, or waits for the next argument. -/
def letters (r : Reading) : List Char → Except Stop Reading
  | [] => .ok r
  | c :: cs =>
    match Switch.ofLetter? r.name? c with
    | none => .error .usage
    | some .version => .error .version
    | some (.flag f) =>
      match r.given.addFlag? f with
      | some given => letters { r with given } cs
      | none => .error .usage
    | some (.setting s) =>
      match cs with
      | [] => .ok { r with pending := some s }
      | '=' :: value => r.update (r.given.add? s (String.ofList value))
      | value => r.update (r.given.add? s (String.ofList value))

/-- Reads an option with a long name, and its value after an equals sign. -/
def long (r : Reading) (text : List Char) : Except Stop Reading :=
  let name := String.ofList (text.takeWhile (· ≠ '='))
  match Switch.ofName? r.name? name, text.dropWhile (· ≠ '=') with
  | some (.setting s), [] => .ok { r with pending := some s }
  | some (.setting s), _ :: value => r.update (r.given.add? s (String.ofList value))
  | some (.flag f), [] => r.update (r.given.addFlag? f)
  | some .version, [] => .error .version
  | _, _ => .error .usage

/-- Reads a word: the name of a command, if none was named, or the path. -/
def word (r : Reading) (text : String) : Except Stop Reading :=
  match r.command, r.optionsEnded, Command.ofName? text with
  | none, false, some command => .ok { command := some (command, r.given) }
  | _, _, _ => r.update (r.given.addPath? text)

/-- Reads an argument. A setting that waits takes no argument that looks like an option. -/
def argument (r : Reading) (text : String) : Except Stop Reading :=
  if r.optionsEnded then r.word text
  else
    match r.pending, text.toList with
    | none, ['-', '-'] => .ok { r with optionsEnded := true }
    | none, '-' :: '-' :: rest => r.long rest
    | none, '-' :: c :: rest => r.letters (c :: rest)
    | none, _ => r.word text
    | some _, '-' :: _ :: _ => .error .usage
    | some s, _ => r.update (r.given.add? s text)

/-- Reads a list of arguments. -/
def arguments (r : Reading) : List String → Except Stop Reading
  | [] => if r.pending.isNone then .ok r else .error .usage
  | text :: rest =>
    match r.argument text with
    | .ok next => next.arguments rest
    | .error stop => .error stop

end Reading

/-- What is asked for. -/
inductive Request where
  | scan (path : Path)
  | file (path : Path)
  | breadcrumb (path : Path) (line column : Nat)
  | folds (path : Path)
  | render (path : Path) (palette : Palette)
  deriving DecidableEq, Repr

/-- The path that a request is about. -/
def Request.path : Request → Path
  | scan path | file path | breadcrumb path _ _ | folds path | render path _ => path

/-- A request with its options. -/
structure Invocation where
  request : Request
  format : ReportFormat
  output : Option Path
  settings : ScanSettings

/-- The settings of a scan of a path. -/
def Given.settings (g : Given) (path : Path) : ScanSettings where
  root := path
  ignorePatterns := g.ignore.getD []
  ignoreFile := g.ignoreFile.map .ofString
  threads := g.threads.getD 1
  includeHidden := g.flags.contains .hidden
  analysis :=
    { fast := g.flags.contains .fast
      style := if g.flags.contains .contextualPlaceholders then .contextual else .uniform }

/-- The request of a command, if all that it needs was given. Without a path, the current directory
is scanned. -/
def Given.request? (g : Given) (command : Command) : Option Request :=
  let path := g.path.map Path.ofString
  match command with
  | .scan => some (.scan (path.getD (.ofString ".")))
  | .file => path.map .file
  | .breadcrumb => do return .breadcrumb (← path) (← g.line) (g.column.getD 0)
  | .folds => path.map .folds
  | .render => path.map fun p => .render p (if g.flags.contains .ansi then .ansi else .plain)

/-- The request that arguments make. -/
def parse (arguments : List String) : Except Stop Invocation := do
  let r ← Reading.arguments {} arguments
  let (command, given) :=
    match r.command with
    | some (command, before) => (command, before.merge r.given)
    | none => (.scan, r.given)
  match given.request? command with
  | none => throw .usage
  | some request =>
    return {
      request
      format := given.format.getD .json
      output := given.output.map .ofString
      settings := given.settings request.path }

end ElvishOutline.CommandLine
