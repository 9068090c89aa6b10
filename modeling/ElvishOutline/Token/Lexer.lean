import ElvishOutline.Text.Numeric
import ElvishOutline.Text.Utf8
import ElvishOutline.Token

/-!
# Cutting a script into tokens

The first character of a token decides how it is read; each reader splits the text that follows
into the rest of the token and the text after it. `tokenize` repeats this to the end of the
script. It never fails: a quote that is not closed runs to the end, and a character that starts no
token is one of its own.

`lexeme_append` says that a reader loses nothing, so the texts of the tokens spell the script.
-/

namespace ElvishOutline

open Text (isAlphabetic isAlphanumeric byteLength)

/-- A text split into the part that is taken and the part that is left. -/
abbrev Split := List Char × List Char

namespace Split

/-- Puts a character in front of the taken part. -/
def cons (c : Char) (s : Split) : Split := (c :: s.1, s.2)

/-- A character put in front of a split is taken. -/
@[simp] theorem cons_fst (c : Char) (s : Split) : (cons c s).1 = c :: s.1 := rfl

/-- A character put in front of a split leaves the rest as it is. -/
@[simp] theorem cons_snd (c : Char) (s : Split) : (cons c s).2 = s.2 := rfl

/-- Takes the longest part whose characters all satisfy `p`. -/
def spanning (p : Char → Bool) (cs : List Char) : Split := (cs.takeWhile p, cs.dropWhile p)

/-- The longest part with a property and the rest make up the text. -/
theorem spanning_append (p : Char → Bool) (cs : List Char) :
    (Split.spanning p cs).1 ++ (Split.spanning p cs).2 = cs :=
  List.takeWhile_append_dropWhile

end Split

namespace Lexer

/-- Spaces, tabs and carriage returns stand inside a line. -/
def isInlineBlank (c : Char) : Bool := c = ' ' || c = '\t' || c = '\r'

/-- The characters that start a bareword, a leading dot apart. -/
def isWordStart (c : Char) : Bool := isAlphabetic c || c = '_'

/-- The characters inside a bareword, dots apart. -/
def isWordChar (c : Char) : Bool :=
  isAlphanumeric c || c = '_' || c = '-' || c = ':' || c = '~'

/-- The characters of a variable after its dollar sign. -/
def isVariableChar (c : Char) : Bool := isWordChar c || c = '@'

/-- The rest of a bareword. A dot belongs to it unless another dot follows. -/
def wordTail : List Char → Split
  | [] => ([], [])
  | c :: cs =>
    if isWordChar c then (wordTail cs).cons c
    else if c = '.' ∧ cs.head? ≠ some '.' then (wordTail cs).cons c
    else ([], c :: cs)

/-- The kind of a bareword: a reserved word, or an identifier. -/
def wordKind (text : List Char) : TokenKind :=
  match Keyword.ofWord? (String.ofList text) with
  | some k => .keyword k
  | none => .identifier

/-- The rest of a single-quoted string. Two quotes stand for one; the closing quote is taken. -/
def singleQuotedTail : List Char → Split
  | [] => ([], [])
  | '\'' :: '\'' :: cs => ((singleQuotedTail cs).cons '\'').cons '\''
  | c :: cs => if c = '\'' then ([c], cs) else (singleQuotedTail cs).cons c

/-- The rest of a double-quoted string. A backslash takes the next character with it. -/
def doubleQuotedTail : List Char → Split
  | [] => ([], [])
  | '\\' :: c :: cs => ((doubleQuotedTail cs).cons c).cons '\\'
  | c :: cs => if c = '"' then ([c], cs) else (doubleQuotedTail cs).cons c

/-- The digits of decimal numbers, which underscores may separate. -/
def isDecimalDigit (c : Char) : Bool := c.isDigit || c = '_'

/-- Whether a character is a digit of the base two, eight or sixteen. -/
def isDigitOf (base : Nat) (c : Char) : Bool :=
  if c.isDigit then c.toNat - '0'.toNat < base
  else base = 16 && (('a' ≤ c && c ≤ 'f') || ('A' ≤ c && c ≤ 'F'))

/-- The base and the form that the letter after a leading zero announces. -/
def baseOf? (letter : Char) : Option (Nat × NumberForm) :=
  if letter = 'x' ∨ letter = 'X' then some (16, .hexadecimal)
  else if letter = 'o' ∨ letter = 'O' then some (8, .octal)
  else if letter = 'b' ∨ letter = 'B' then some (2, .binary)
  else none

/-- The rest of a number in another base: after a leading zero, a base letter and a digit. -/
def basedTail? (first : Char) (cs : List Char) : Option (NumberForm × Split) :=
  match cs with
  | letter :: digit :: _ =>
    match baseOf? letter with
    | some (base, form) =>
      if first = '0' ∧ isDigitOf base digit then
        some (form, (Split.spanning (fun c => isDigitOf base c || c = '_') cs.tail).cons letter)
      else none
    | none => none
  | _ => none

/-- The fraction of a decimal number: a dot before a digit, and the digits. -/
def fraction (cs : List Char) : Split :=
  match cs with
  | '.' :: digit :: _ =>
    if digit.isDigit then (Split.spanning isDecimalDigit cs.tail).cons '.' else ([], cs)
  | _ => ([], cs)

/-- The exponent of a decimal number: `e` before a digit or a sign, and the digits. A sign needs no
digit after it. -/
def exponent (cs : List Char) : Split :=
  match cs with
  | e :: next :: rest =>
    if (e = 'e' ∨ e = 'E') ∧ (next.isDigit ∨ next = '+' ∨ next = '-') then
      ((Split.spanning isDecimalDigit rest).cons next).cons e
    else ([], cs)
  | _ => ([], cs)

/-- The rest of a decimal number, and its form. -/
def decimalTail (cs : List Char) : NumberForm × Split :=
  let whole := Split.spanning isDecimalDigit cs
  let frac := fraction whole.2
  let expo := exponent frac.2
  (if frac.1 = [] ∧ expo.1 = [] then .integer else .float, (whole.1 ++ frac.1 ++ expo.1, expo.2))

/-- Whether a dot and a word character come first. -/
def startsWord : List Char → Bool
  | '.' :: next :: _ => isWordChar next
  | _ => false

/-- The rest of a token that starts with a digit. A decimal number that runs on into a dot and a
word character is an identifier. -/
def numberTail (first : Char) (cs : List Char) : TokenKind × Split :=
  match basedTail? first cs with
  | some (form, split) => (.number form, split)
  | none =>
    let number := decimalTail cs
    let word := wordTail number.2.2
    if startsWord number.2.2 then (.identifier, (number.2.1 ++ word.1, word.2))
    else (.number number.1, number.2)

/-- The tokens of a single character. -/
def punctuation? (c : Char) : Option TokenKind :=
  match c with
  | '\x7b' => some (.opening .brace)
  | '\x7d' => some (.closing .brace)
  | '[' => some (.opening .bracket)
  | ']' => some (.closing .bracket)
  | '(' => some (.opening .paren)
  | ')' => some (.closing .paren)
  | ';' => some .semicolon
  | ',' => some .comma
  | '|' => some (.operator .pipe)
  | '&' => some (.operator .ampersand)
  | '+' => some (.operator .plus)
  | '-' => some (.operator .minus)
  | '*' => some (.operator .star)
  | '/' => some (.operator .slash)
  | '%' => some (.operator .percent)
  | _ => none

/-- The tokens that an equals sign may lengthen: the kind alone, and the kind with the sign. -/
def comparison? (c : Char) : Option (TokenKind × TokenKind) :=
  match c with
  | '=' => some (.operator .assign, .operator .equal)
  | '<' => some (.operator .less, .operator .lessEqual)
  | '>' => some (.operator .greater, .operator .greaterEqual)
  | '!' => some (.unknown, .operator .notEqual)
  | _ => none

/-- What one token takes: its kind, its characters after the first, and the text after it. -/
structure Lexeme where
  kind : TokenKind
  tail : List Char
  rest : List Char

/-- A token of the given kind made of the first character and a split of what follows. -/
def Lexeme.ofSplit (kind : TokenKind) (split : Split) : Lexeme := ⟨kind, split.1, split.2⟩

/-- A bareword. -/
def word (first : Char) (cs : List Char) : Lexeme :=
  let split := wordTail cs
  .ofSplit (wordKind (first :: split.1)) split

/-- A token that starts with a dot: a range operator or a bareword. -/
def dotted (cs : List Char) : Lexeme :=
  match cs with
  | '.' :: '=' :: rest => ⟨.operator .rangeInclusive, ['.', '='], rest⟩
  | '.' :: rest => ⟨.operator .range, ['.'], rest⟩
  | _ => word '.' cs

/-- A caret continues the line when the line ends right after it. -/
def continuation (cs : List Char) : Lexeme :=
  match cs with
  | '\n' :: rest => ⟨.blank, ['\n'], rest⟩
  | _ => ⟨.unknown, [], cs⟩

/-- A punctuation or comparison token, or an unknown character. -/
def sign (first : Char) (cs : List Char) : Lexeme :=
  match punctuation? first, comparison? first with
  | some kind, _ => ⟨kind, [], cs⟩
  | none, some (alone, withEquals) =>
    match cs with
    | '=' :: rest => ⟨withEquals, ['='], rest⟩
    | _ => ⟨alone, [], cs⟩
  | none, none => ⟨.unknown, [], cs⟩

/-- The token that starts with `first` in front of the text `cs`. -/
def lexeme (first : Char) (cs : List Char) : Lexeme :=
  if first = '\n' then ⟨.newline, [], cs⟩
  else if isInlineBlank first then .ofSplit .blank (Split.spanning isInlineBlank cs)
  else if first = '^' then continuation cs
  else if first = '#' then .ofSplit .comment (Split.spanning (· ≠ '\n') cs)
  else if first = '\'' then .ofSplit .singleQuoted (singleQuotedTail cs)
  else if first = '"' then .ofSplit .doubleQuoted (doubleQuotedTail cs)
  else if first = '$' then .ofSplit .variableName (Split.spanning isVariableChar cs)
  else if first.isDigit then
    let (kind, split) := numberTail first cs
    .ofSplit kind split
  else if isWordStart first then word first cs
  else if first = '.' then dotted cs
  else sign first cs

/-- What a word takes and what it leaves make up the text. -/
theorem wordTail_append (cs : List Char) : (wordTail cs).1 ++ (wordTail cs).2 = cs := by
  fun_induction wordTail cs <;> simp_all

/-- What a literal in single quotes takes and what it leaves make up the text. -/
theorem singleQuotedTail_append (cs : List Char) :
    (singleQuotedTail cs).1 ++ (singleQuotedTail cs).2 = cs := by
  fun_induction singleQuotedTail cs <;> simp_all

/-- What a literal in double quotes takes and what it leaves make up the text. -/
theorem doubleQuotedTail_append (cs : List Char) :
    (doubleQuotedTail cs).1 ++ (doubleQuotedTail cs).2 = cs := by
  fun_induction doubleQuotedTail cs <;> simp_all

/-- What a number with the letter of a base takes and what it leaves make up the text. -/
theorem basedTail?_append {first : Char} {cs : List Char} {form : NumberForm} {split : Split}
    (h : basedTail? first cs = some (form, split)) : split.1 ++ split.2 = cs := by
  unfold basedTail? at h
  split at h
  · split at h
    · split at h
      · obtain ⟨-, rfl⟩ := Prod.mk.inj (Option.some.inj h)
        simp [Split.spanning_append]
      · simp at h
    · simp at h
  · simp at h

/-- What a fraction takes and what it leaves make up the text, also if there is no fraction. -/
theorem fraction_append (cs : List Char) : (fraction cs).1 ++ (fraction cs).2 = cs := by
  unfold fraction
  split
  · split
    · simp [Split.spanning_append]
    · simp
  · simp

/-- What an exponent takes and what it leaves make up the text, also if there is no exponent. -/
theorem exponent_append (cs : List Char) : (exponent cs).1 ++ (exponent cs).2 = cs := by
  unfold exponent
  split
  · split
    · simp [Split.spanning_append]
    · simp
  · simp

/-- What a decimal number takes and what it leaves make up the text. -/
theorem decimalTail_append (cs : List Char) :
    (decimalTail cs).2.1 ++ (decimalTail cs).2.2 = cs := by
  simp [decimalTail, exponent_append, fraction_append, Split.spanning_append]

/-- What a number of any form takes and what it leaves make up the text. -/
theorem numberTail_append (first : Char) (cs : List Char) :
    (numberTail first cs).2.1 ++ (numberTail first cs).2.2 = cs := by
  unfold numberTail
  split
  · next h => exact basedTail?_append h
  · have whole := decimalTail_append cs
    dsimp only
    split
    · simp [wordTail_append, whole]
    · exact whole

/-- A token and the text after it make up the text. -/
theorem lexeme_append (first : Char) (cs : List Char) :
    (lexeme first cs).tail ++ (lexeme first cs).rest = cs := by
  unfold lexeme
  split; · rfl
  split; · exact Split.spanning_append _ cs
  split; · unfold continuation; split <;> simp
  split; · exact Split.spanning_append _ cs
  split; · exact singleQuotedTail_append cs
  split; · exact doubleQuotedTail_append cs
  split; · exact Split.spanning_append _ cs
  split; · exact numberTail_append first cs
  split; · exact wordTail_append cs
  split
  · unfold dotted
    split
    · rfl
    · rfl
    · exact wordTail_append cs
  · unfold sign
    split
    · rfl
    · split <;> simp
    · rfl

/-- What follows a token is shorter than what its first character starts. -/
theorem length_rest_lt (first : Char) (cs : List Char) :
    (lexeme first cs).rest.length < (first :: cs).length := by
  have := congrArg List.length (lexeme_append first cs)
  simp only [List.length_append] at this
  simp only [List.length_cons]
  omega

/-- The tokens of a text that starts at the byte `start` of the script. -/
def tokensFrom (start : Nat) (text : List Char) : List Token :=
  match text with
  | [] => []
  | c :: cs =>
    let next := lexeme c cs
    let taken := c :: next.tail
    ⟨next.kind, String.ofList taken, start, byteLength taken⟩ ::
      tokensFrom (start + byteLength taken) next.rest
termination_by text.length
decreasing_by exact length_rest_lt c cs

end Lexer

/-- The tokens of a script. -/
def tokenize (source : String) : List Token :=
  Lexer.tokensFrom 0 source.toList

end ElvishOutline
