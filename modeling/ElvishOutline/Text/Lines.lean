import ElvishOutline.Text.Utf8

/-!
# Lines and cursors

A line ends after a line feed, a carriage return, the two together, a vertical tab, a form feed, a
next-line character, or a line or paragraph separator. A text has one more line than it has line
ends, so the last line may be empty.

`LineTable` answers both directions: the line of a byte offset, and the offset of a cursor given as
a line counted from one and a column counted in characters. Reports count lines by another rule,
`lineFeedCount`.
-/

namespace ElvishOutline.Text

/-- The characters that end a line. -/
def isLineBreak (c : Char) : Bool :=
  c = '\n' || c = '\r' || c = '\x0b' || c = '\x0c' || c = '\x85' || c = '\u2028' ||
    c = '\u2029'

/-- Puts a character in front of the first line. -/
def consLine (c : Char) : List (List Char) → List (List Char)
  | [] => [[c]]
  | line :: rest => (c :: line) :: rest

/-- The lines of a text, each with the line end that closes it. -/
def lines : List Char → List (List Char)
  | [] => [[]]
  | '\r' :: '\n' :: cs => ['\r', '\n'] :: lines cs
  | c :: cs => if isLineBreak c then [c] :: lines cs else consLine c (lines cs)

/-- A character put in front of lines stands in front of their text. -/
@[simp] theorem flatten_consLine (c : Char) (ls : List (List Char)) :
    (consLine c ls).flatten = c :: ls.flatten := by
  cases ls <;> simp [consLine]

/-- The lines make up the text. -/
@[simp] theorem flatten_lines (cs : List Char) : (lines cs).flatten = cs := by
  fun_induction lines cs <;> simp_all

/-- A text has at least one line. -/
theorem lines_ne_nil (cs : List Char) : lines cs ≠ [] := by
  fun_cases lines cs
  · simp
  · simp
  · simp
  · next c rest _ _ => cases lines rest <;> simp [consLine]

/-- The offsets at which lines end, for lines that start at `start`. The last line has no end. -/
def breakEnds (start : Nat) : List (List Char) → List Nat
  | [] => []
  | [_] => []
  | line :: rest => (start + byteLength line) :: breakEnds (start + byteLength line) rest

/-- A text prepared for questions about its lines. -/
structure LineTable where
  lines : List (List Char)
  breaks : List Nat
  length : Nat

namespace LineTable

/-- The index of a text. -/
def ofText (text : List Char) : LineTable where
  lines := Text.lines text
  breaks := breakEnds 0 (Text.lines text)
  length := byteLength text

/-- The line, counted from zero, that holds an offset: the number of line ends up to it. The end of
the text has a line, offsets past it have none. -/
def lineOf? (index : LineTable) (offset : Nat) : Option Nat :=
  if offset ≤ index.length then some (index.breaks.countP (· ≤ offset)) else none

/-- A line without the line feed at its end. Other line ends stay. -/
def content (line : List Char) : List Char :=
  if line.getLast? = some '\n' then line.dropLast else line

/-- The offset of a cursor. Line zero is taken for line one, a line past the last for the end of the
text, and a column past the end of its line for that end. -/
def offsetOf (index : LineTable) (line column : Nat) : Nat :=
  match index.lines.drop (line - 1) with
  | [] => index.length
  | current :: _ =>
    byteLength (index.lines.take (line - 1)).flatten + byteLength ((content current).take column)

end LineTable

/-- The number of lines that a report gives: line feeds, and one more for a last line without. -/
def lineFeedCount (text : List Char) : Nat :=
  text.count '\n' + if text.getLast?.all (· = '\n') then 0 else 1

end ElvishOutline.Text
