/-!
# Tokens of Elvish scripts

A token is a kind, its text, and the bytes of the script that it covers. Kinds group what the
structural passes ask about: keywords that introduce a block, the three pairs of delimiters, blanks
that carry no structure, and the two kinds that end a statement.

Every kind has one written name, and `TokenKind.ofName?` finds a kind by it.
-/

namespace ElvishOutline

/-- The blocks that a keyword introduces. -/
inductive BlockKind where
  | function | ifBlock | elifBlock | elseBlock | forLoop | whileLoop | tryBlock | catchBlock
  | finallyBlock
  deriving DecidableEq, Repr

namespace BlockKind

/-- All blocks, in the order of their declaration. -/
def all : List BlockKind :=
  [function, ifBlock, elifBlock, elseBlock, forLoop, whileLoop, tryBlock, catchBlock, finallyBlock]

/-- The keyword that introduces the block. -/
def word : BlockKind → String
  | function => "fn"
  | ifBlock => "if"
  | elifBlock => "elif"
  | elseBlock => "else"
  | forLoop => "for"
  | whileLoop => "while"
  | tryBlock => "try"
  | catchBlock => "catch"
  | finallyBlock => "finally"

end BlockKind

/-- The reserved words of the language, constants included. -/
inductive Keyword where
  | block (kind : BlockKind)
  | leaveLoop | nextIteration | returnEarly
  | declare | assign | assignLocally | delete
  | importModule | pragma
  | conjunction | disjunction | coalesce
  | trueConstant | falseConstant | nilConstant
  deriving DecidableEq, Repr

namespace Keyword

/-- All reserved words. -/
def all : List Keyword :=
  BlockKind.all.map block ++
    [leaveLoop, nextIteration, returnEarly, declare, assign, assignLocally, delete, importModule,
      pragma, conjunction, disjunction, coalesce, trueConstant, falseConstant, nilConstant]

/-- How the word is written. -/
def word : Keyword → String
  | block kind => kind.word
  | leaveLoop => "break"
  | nextIteration => "continue"
  | returnEarly => "return"
  | declare => "var"
  | assign => "set"
  | assignLocally => "tmp"
  | delete => "del"
  | importModule => "use"
  | pragma => "pragma"
  | conjunction => "and"
  | disjunction => "or"
  | coalesce => "coalesce"
  | trueConstant => "true"
  | falseConstant => "false"
  | nilConstant => "nil"

/-- The reserved word that a text is, if it is one. -/
def ofWord? (text : String) : Option Keyword :=
  all.find? (·.word == text)

/-- A text is recognised as a reserved word exactly when it is that word as written. -/
theorem ofWord?_eq_some_iff {text : String} {k : Keyword} :
    ofWord? text = some k ↔ text = k.word := by
  constructor
  · intro h
    have found := List.find?_some h
    exact (beq_iff_eq.mp found).symm
  · rintro rfl
    cases k with
    | block b => cases b <;> decide
    | _ => decide

end Keyword

/-- The pairs of delimiters that nest. -/
inductive Delimiter where
  | brace | bracket | paren
  deriving DecidableEq, Repr

namespace Delimiter

/-- All pairs of delimiters. -/
def all : List Delimiter := [brace, bracket, paren]

/-- The name of the pair. -/
def name : Delimiter → String
  | brace => "brace"
  | bracket => "bracket"
  | paren => "paren"

end Delimiter

/-- The forms in which a number may be written. -/
inductive NumberForm where
  | integer | float | hexadecimal | octal | binary
  deriving DecidableEq, Repr

namespace NumberForm

/-- All forms of numbers. -/
def all : List NumberForm := [integer, float, hexadecimal, octal, binary]

/-- The name of a token of that form. -/
def name : NumberForm → String
  | integer => "integer"
  | float => "float"
  | hexadecimal => "hex_number"
  | octal => "octal_number"
  | binary => "binary_number"

end NumberForm

/-- The operators. -/
inductive Operator where
  | pipe | equal | notEqual | less | greater | lessEqual | greaterEqual
  | plus | minus | star | slash | percent | assign | range | rangeInclusive | ampersand
  deriving DecidableEq, Repr

namespace Operator

/-- All operators. -/
def all : List Operator :=
  [pipe, equal, notEqual, less, greater, lessEqual, greaterEqual, plus, minus, star, slash, percent,
    assign, range, rangeInclusive, ampersand]

/-- The name of the operator. -/
def name : Operator → String
  | pipe => "pipe"
  | equal => "eq"
  | notEqual => "ne"
  | less => "lt"
  | greater => "gt"
  | lessEqual => "le"
  | greaterEqual => "ge"
  | plus => "plus"
  | minus => "minus"
  | star => "star"
  | slash => "slash"
  | percent => "percent"
  | assign => "assign"
  | range => "range"
  | rangeInclusive => "range_inclusive"
  | ampersand => "ampersand"

end Operator

/-- What a token is. Spaces, tabs, carriage returns and continued lines are `blank`; a character
that starts no token is `unknown`. -/
inductive TokenKind where
  | blank | newline | comment | singleQuoted | doubleQuoted
  | number (form : NumberForm)
  | keyword (word : Keyword)
  | variableName | identifier
  | operator (op : Operator)
  | opening (pair : Delimiter)
  | closing (pair : Delimiter)
  | semicolon | comma | unknown
  deriving DecidableEq, Repr

namespace TokenKind

/-- All kinds of tokens. -/
def all : List TokenKind :=
  [blank, newline, comment, singleQuoted, doubleQuoted] ++ NumberForm.all.map number ++
    Keyword.all.map keyword ++ [variableName, identifier] ++ Operator.all.map operator ++
    Delimiter.all.map opening ++ Delimiter.all.map closing ++ [semicolon, comma, unknown]

/-- The written name of a kind. -/
def name : TokenKind → String
  | blank => "white_space"
  | newline => "newline"
  | comment => "comment"
  | singleQuoted => "single_quoted_string"
  | doubleQuoted => "double_quoted_string"
  | number form => form.name
  | keyword k => k.word
  | variableName => "variable"
  | identifier => "identifier"
  | operator op => op.name
  | opening pair => "l_" ++ pair.name
  | closing pair => "r_" ++ pair.name
  | semicolon => "semicolon"
  | comma => "comma"
  | unknown => "bad_character"

/-- The kind with the given name. -/
def ofName? (text : String) : Option TokenKind :=
  all.find? (·.name == text)

/-- Blanks and line ends carry no structure; comments do. -/
def isTrivia : TokenKind → Bool
  | blank | newline => true
  | _ => false

/-- The kinds that end a statement outside all delimiters. -/
def isTerminator : TokenKind → Bool
  | newline | semicolon => true
  | _ => false

/-- The block that a token of this kind introduces. -/
def block? : TokenKind → Option BlockKind
  | keyword (.block b) => some b
  | _ => none

end TokenKind

/-- A token: its kind, its text, and the bytes from `start` on that it covers. -/
structure Token where
  kind : TokenKind
  text : String
  start : Nat
  length : Nat
  deriving DecidableEq, Repr

namespace Token

/-- The offset after the token's last byte. -/
def stop (t : Token) : Nat := t.start + t.length

/-- Whether the token carries no structure. -/
def isTrivia (t : Token) : Bool := t.kind.isTrivia

/-- Whether the token ends a statement outside all delimiters. -/
def isTerminator (t : Token) : Bool := t.kind.isTerminator

/-- The token moved to the right by `n` bytes. -/
def shift (n : Nat) (t : Token) : Token := { t with start := n + t.start }

/-- A token that is moved ends as far behind its old end as it starts behind its old start. -/
@[simp] theorem stop_shift (n : Nat) (t : Token) : (t.shift n).stop = n + t.stop := by
  simp [shift, stop, Nat.add_assoc]

end Token

end ElvishOutline
