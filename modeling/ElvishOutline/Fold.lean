import ElvishOutline.Statement
import ElvishOutline.Text.Lines
import ElvishOutline.Token.Stream

/-!
# Fold regions

A fold region is a matched pair of braces or brackets of one statement with a line end between its
two ends. A pair is matched by counting delimiters of its own sort only. Each region carries the
text to show in its place; for braces that text may name the block that the brace opens.

The context of a brace is read off the tokens ahead of it in its statement: blanks, identifiers,
variables and closing parentheses are passed over, and the next token decides.

Neither the ends of tokens nor lines are counted here. `findFoldsWith` takes any answer to where a
token ends and where a line is; `findFolds` takes the sum of start and length, which is the end of every
token inside its script, and asks the table of a text for lines.
-/

namespace ElvishOutline

open Text (LineTable)

/-- The pairs of delimiters that fold. -/
inductive FoldDelimiter where
  | brace | bracket
  deriving DecidableEq, Repr

namespace FoldDelimiter

/-- The pair as a delimiter of tokens. -/
def toDelimiter : FoldDelimiter → Delimiter
  | brace => .brace
  | bracket => .bracket

/-- The written name of the pair. -/
def name (d : FoldDelimiter) : String := d.toDelimiter.name

/-- The pair with the given name. -/
def ofName? (text : String) : Option FoldDelimiter :=
  [brace, bracket].find? (·.name == text)

/-- The pair that a token opens, if it folds. -/
def ofOpening? : TokenKind → Option FoldDelimiter
  | .opening .brace => some brace
  | .opening .bracket => some bracket
  | _ => none

end FoldDelimiter

/-- What a brace opens. -/
inductive BraceRole where
  | block (kind : BlockKind)
  | lambda
  | generic
  deriving DecidableEq, Repr

namespace BraceRole

/-- All contexts. -/
def all : List BraceRole := BlockKind.all.map block ++ [lambda, generic]

/-- The written name of the context. -/
def name : BraceRole → String
  | block .function => "function"
  | block b => b.word ++ "_block"
  | lambda => "lambda"
  | generic => "generic"

/-- The context with the given name. -/
def ofName? (text : String) : Option BraceRole :=
  all.find? (·.name == text)

/-- Whether the search for the context of a brace passes over a token. -/
def isTransparent (t : Token) : Bool :=
  match t.kind with
  | .identifier | .variableName | .closing .paren => true
  | kind => kind.isTrivia

/-- Tokens that carry no structure are passed over. -/
theorem isTransparent_of_isTrivia {t : Token} (h : t.isTrivia = true) : isTransparent t = true := by
  have htrivia : t.kind.isTrivia = true := h
  unfold isTransparent
  split
  · rfl
  · rfl
  · rfl
  · exact htrivia

/-- The context of a brace, from the tokens ahead of it, the nearest first. -/
def ofPreceding (preceding : List Token) : BraceRole :=
  match preceding.dropWhile isTransparent with
  | [] => lambda
  | t :: _ =>
    match t.kind.block? with
    | some b => block b
    | none => lambda

end BraceRole

/-- Whether the placeholder of a brace names its context. -/
inductive PlaceholderStyle where
  | uniform | contextual
  deriving DecidableEq, Repr

namespace PlaceholderStyle

/-- The style with the given name. -/
def ofName? : String → Option PlaceholderStyle
  | "uniform" => some uniform
  | "contextual" => some contextual
  | _ => none

end PlaceholderStyle

/-- The placeholder of a brace. -/
def BraceRole.placeholder (context : BraceRole) (style : PlaceholderStyle) : String :=
  match style, context with
  | .contextual, .block b => "\x7b" ++ b.word ++ " ...\x7d"
  | _, _ => "\x7b...\x7d"

/-- How a script is analysed. In fast mode the contexts of braces are left open. -/
structure AnalysisOptions where
  fast : Bool := false
  style : PlaceholderStyle := .uniform
  deriving DecidableEq, Repr

/-- A region that may be collapsed: its bytes, its first and last line counted from zero, the group
that it folds with, and what is shown instead. -/
structure Fold where
  start : Nat
  stop : Nat
  startLine : Nat
  endLine : Nat
  group : String
  placeholder : String
  delimiter : FoldDelimiter
  context : Option BraceRole
  collapsed : Bool
  deriving DecidableEq, Repr

namespace Fold

/-- The number of lines that disappear when the region is collapsed. -/
def hiddenLines (fold : Fold) : Nat := fold.endLine - fold.startLine

/-- Whether one region lies inside another. -/
def contains (outer inner : Fold) : Bool :=
  outer.start ≤ inner.start && inner.stop ≤ outer.stop

end Fold

/-- The token that closes a pair, `depth` further pairs of its sort being open. -/
def closing? (pair : Delimiter) (depth : Nat) : List Token → Option Token
  | [] => none
  | t :: ts =>
    if t.kind = .opening pair then closing? pair (depth + 1) ts
    else if t.kind = .closing pair then
      match depth with
      | 0 => some t
      | depth + 1 => closing? pair depth ts
    else closing? pair depth ts

/-- Whether the first token that is no blank is an ampersand, as in a map. -/
def startsMap (following : List Token) : Bool :=
  (following.find? (!·.isTrivia)).map (·.kind) = some (.operator .ampersand)

/-- Gives the line of an offset, or the error that there is none. -/
abbrev LineLookup := Nat → Except TokenStreamError Nat

/-- The line of an offset in the table of a text. -/
def lineOf (index : LineTable) (offset : Nat) : Except TokenStreamError Nat :=
  match index.lineOf? offset with
  | some line => .ok line
  | none => .error (.offsetOutOfRange offset index.length)

/-- The context that is reported for a pair, given the tokens ahead of its opening one. -/
def contextOf (options : AnalysisOptions) (pair : FoldDelimiter) (preceding : List Token) :
    Option BraceRole :=
  match pair with
  | .brace => some (if options.fast then .generic else .ofPreceding preceding)
  | .bracket => none

/-- What is shown instead of a pair, given its context and the tokens after its opening one. -/
def placeholderOf (options : AnalysisOptions) (context : Option BraceRole)
    (following : List Token) : String :=
  match context with
  | some c => c.placeholder options.style
  | none => if startsMap following then "[&...]" else "[...]"

/-- The region of a pair of tokens, unless both ends are on one line. -/
def regionOf (ends : Token → Nat) (lookup : LineLookup) (options : AnalysisOptions)
    (pair : FoldDelimiter) (preceding : List Token) (opener : Token) (following : List Token)
    (closer : Token) : Except TokenStreamError (Option Fold) := do
  let startLine ← lookup opener.start
  let endLine ← lookup (ends closer)
  if endLine ≤ startLine then return none
  let context := contextOf options pair preceding
  return some {
    start := opener.start
    stop := ends closer
    startLine
    endLine
    group := "elvish-" ++ pair.name ++ "-" ++ toString opener.start
    placeholder := placeholderOf options context following
    delimiter := pair
    context
    collapsed := false }

/-- The region that a token opens, given the tokens around it in its statement. -/
def regionAt (ends : Token → Nat) (lookup : LineLookup) (options : AnalysisOptions)
    (preceding : List Token) (t : Token) (following : List Token) :
    Except TokenStreamError (Option Fold) :=
  match FoldDelimiter.ofOpening? t.kind with
  | none => .ok none
  | some pair =>
    match closing? pair.toDelimiter 0 following with
    | none => .ok none
    | some closer => regionOf ends lookup options pair preceding t following closer

/-- The regions that the tokens of a statement open, after the tokens `preceding`, the nearest
first. -/
def statementFolds (ends : Token → Nat) (lookup : LineLookup) (options : AnalysisOptions)
    (preceding : List Token) : List Token → Except TokenStreamError (List Fold)
  | [] => .ok []
  | t :: ts => do
    let here ← regionAt ends lookup options preceding t ts
    let later ← statementFolds ends lookup options (t :: preceding) ts
    return here.toList ++ later

/-- The regions of a list of statements, in the order of their opening tokens. -/
def foldStatements (ends : Token → Nat) (lookup : LineLookup) (options : AnalysisOptions) :
    List Statement → Except TokenStreamError (List Fold)
  | [] => .ok []
  | s :: rest => do
    let here ← statementFolds ends lookup options [] s.tokens
    let later ← foldStatements ends lookup options rest
    return here ++ later

/-- The fold regions of a list of tokens, with the ends of tokens as the function gives them, and the
lines as the lookup does. -/
def findFoldsWith (ends : Token → Nat) (tokens : List Token) (lookup : LineLookup)
    (options : AnalysisOptions) : Except TokenStreamError (List Fold) :=
  foldStatements ends lookup options (segment tokens)

/-- The fold regions of a list of tokens, with the lines of a text. -/
def findFolds (tokens : List Token) (index : LineTable) (options : AnalysisOptions) :
    Except TokenStreamError (List Fold) :=
  findFoldsWith Token.stop tokens (lineOf index) options

end ElvishOutline
