import ElvishOutline.Data.Json
import ElvishOutline.Text.Utf8

/-!
# YAML

Writing structured values as YAML in block style. Fields of a record are indented by two, a list in
a record is not indented further, and lines are never folded.

A string is written plain when that reads back as the same string, as a literal block when it holds
a line feed, and otherwise in single quotes. Characters that cannot be printed, and blanks next to a
line break, force double quotes. A key that is long or spans lines is marked as a key explicitly.
-/

namespace ElvishOutline.Yaml

/-- Numbers are laid out as in JSON, but without a sign for positive exponents. -/
def realStyle : ShortestStyle where
  positionalFrom := -5
  positionalTo := 15
  positiveExponentSign := ""
  nan := ".nan"
  infinity := ".inf"
  negativeInfinity := "-.inf"

/-- The characters that break a line. -/
def isBreak (c : Char) : Bool :=
  c = '\n' || c = '\r' || c = '\x85' || c = '\u2028' || c = '\u2029'

/-- The blanks, line breaks and the end mark that separate words. -/
def isSeparator (c : Char) : Bool := c = ' ' || c = '\t' || isBreak c || c = '\x00'

/-- The characters that may be written as they are. -/
def isPrintable (c : Char) : Bool :=
  c = '\n' || (0x20 ≤ c.toNat && c.toNat ≤ 0x7E) ||
    (0xA0 ≤ c.toNat && c.toNat ≠ 0xFEFF && c.toNat ≠ 0xFFFE && c.toNat ≠ 0xFFFF)

/-- Whether two neighbours satisfy the two conditions. -/
def hasNeighbours (p q : Char → Bool) : List Char → Bool
  | a :: b :: rest => (p a && q b) || hasNeighbours p q (b :: rest)
  | _ => false

/-- Whether a text starts with an optional sign, and what follows it. -/
def afterSign : List Char → List Char
  | '+' :: rest => rest
  | '-' :: rest => rest
  | cs => cs

/-- Whether a text is digits with a superfluous leading zero. -/
def hasLeadingZero (cs : List Char) : Bool :=
  match afterSign cs with
  | '0' :: rest => rest ≠ [] && rest.all Char.isDigit
  | _ => false

/-- The value of a digit in a base up to sixteen. -/
def digitValue? (base : Nat) (c : Char) : Option Nat :=
  (Json.hexValue? c).filter (· < base)

/-- The number that digits of a base write, if there is a digit and nothing else. -/
def naturalOf? (base : Nat) (digits : List Char) : Option Nat :=
  if digits = [] then none
  else digits.foldl (fun n c => n.bind fun n => (digitValue? base c).map (base * n + ·)) (some 0)

/-- The base and the digits of an unsigned integer. -/
def baseAndDigits : List Char → Nat × List Char
  | '0' :: 'x' :: rest => (16, rest)
  | '0' :: 'o' :: rest => (8, rest)
  | '0' :: 'b' :: rest => (2, rest)
  | cs => (10, cs)

/-- Whether a text reads as an integer of at most 128 bits. -/
def isInteger (cs : List Char) : Bool :=
  !hasLeadingZero cs &&
    match cs with
    | '-' :: rest =>
      let (base, digits) := baseAndDigits rest
      (naturalOf? base digits).any (· ≤ Nat.pow 2 127)
    | _ =>
      let (base, digits) := baseAndDigits (afterSign cs)
      (naturalOf? base digits).any (· < Nat.pow 2 128)

/-- The number that a text writes in decimal, with an optional point and exponent. -/
def decimalOf? (cs : List Char) : Option Binary64 :=
  let whole := cs.takeWhile Char.isDigit
  let rest := cs.dropWhile Char.isDigit
  let (fraction, rest) :=
    match rest with
    | '.' :: more => (more.takeWhile Char.isDigit, more.dropWhile Char.isDigit)
    | more => ([], more)
  if whole ++ fraction = [] then none
  else
    match Json.readExponent rest with
    | some (power, []) =>
      some (.ofDecimal false (Json.digitsValue (whole ++ fraction))
        (power.getD 0 - fraction.length))
    | _ => none

/-- Whether a text reads as a number with a point or an exponent, or as a special number. -/
def isReal (cs : List Char) : Bool :=
  let unsigned := afterSign cs
  [".inf", ".Inf", ".INF"].any (·.toList = unsigned) ||
    [".nan", ".NaN", ".NAN"].any (·.toList = cs) || (decimalOf? unsigned).any (·.isFinite)

/-- Whether a text would be read as something else than a string. -/
def readsAsOther (cs : List Char) : Bool :=
  ["", "null", "Null", "NULL", "~", "true", "True", "TRUE", "false", "False", "FALSE"].any
      (·.toList = cs) ||
    hasLeadingZero cs || isInteger cs || isReal cs

/-- The characters that mark something else than a plain string when they come first. -/
def indicators : List Char :=
  ['#', ',', '[', ']', '\x7b', '\x7d', '&', '*', '!', '|', '>', '\'', '"', '%', '@', '\x60']

/-- Whether a text holds a mark that ends or changes a plain string. -/
def hasIndicators (cs : List Char) : Bool :=
  "---".toList.isPrefixOf cs || "...".toList.isPrefixOf cs ||
    (match cs with
    | [] => false
    | c :: rest =>
      indicators.contains c ||
        ((c = '?' || c = ':' || c = '-') && rest.head?.all isSeparator)) ||
    hasNeighbours (· = ':') isSeparator cs || cs.getLast? = some ':' ||
    hasNeighbours isSeparator (· = '#') cs

/-- Whether a text cannot stand in single quotes or a block: it holds a character that cannot be
printed, or a space ahead of a line break. -/
def needsEscapes (cs : List Char) : Bool :=
  cs.any (!isPrintable ·) || hasNeighbours (· = ' ') isBreak cs

/-- Whether a text may stand without quotes, whatever it reads as. -/
def isPlain (cs : List Char) : Bool :=
  !needsEscapes cs && !hasIndicators cs && !cs.any isBreak && cs.head? ≠ some ' ' &&
    cs.getLast? ≠ some ' '

/-- The ways to write a string. -/
inductive ScalarStyle where
  | plain | singleQuoted | doubleQuoted | literal
  deriving DecidableEq, Repr

/-- How a string is written, where blocks are allowed. -/
def scalarStyle (cs : List Char) : ScalarStyle :=
  if cs.contains '\n' then
    if needsEscapes cs || cs.getLast? = some ' ' then .doubleQuoted else .literal
  else if !readsAsOther cs && isPlain cs then .plain
  else if needsEscapes cs || hasNeighbours isBreak (· = ' ') cs then .doubleQuoted
  else .singleQuoted

/-- A text whose lines after the first are indented. Blank lines are left empty; `fresh` says that a
line has just begun. -/
def indentLines (indent : Nat) (fresh : Bool) : List Char → List Char
  | [] => []
  | c :: cs =>
    if isBreak c then c :: indentLines indent true cs
    else if fresh then List.replicate indent ' ' ++ c :: indentLines indent false cs
    else c :: indentLines indent false cs

/-- A string in single quotes: quotes are doubled, and what follows a line break is indented. -/
def singleQuoted (indent : Nat) (cs : List Char) : List Char :=
  let doubled := cs.flatMap fun c => if c = '\'' then ['\'', '\''] else [c]
  let closing := if cs.getLast?.any isBreak then List.replicate indent ' ' else []
  '\'' :: indentLines indent false doubled ++ closing ++ ['\'']

/-- A digit of base sixteen, in capitals. -/
def hexDigit (n : Nat) : Char := if n < 10 then Char.ofNat (48 + n) else Char.ofNat (55 + n)

/-- The last `width` digits of a number in base sixteen. -/
def hexDigits (width n : Nat) : List Char :=
  (List.range width).reverse.map fun place => hexDigit (n / Nat.pow 16 place % 16)

/-- How one character is written in double quotes. -/
def escape (c : Char) : List Char :=
  if isPrintable c && !isBreak c && c ≠ '"' && c ≠ '\\' then [c]
  else
    '\\' ::
      match c.toNat with
      | 0x00 => ['0']
      | 0x07 => ['a']
      | 0x08 => ['b']
      | 0x09 => ['t']
      | 0x0A => ['n']
      | 0x0B => ['v']
      | 0x0C => ['f']
      | 0x0D => ['r']
      | 0x1B => ['e']
      | 0x22 => ['"']
      | 0x5C => ['\\']
      | 0x85 => ['N']
      | 0x2028 => ['L']
      | 0x2029 => ['P']
      | code =>
        if code ≤ 0xFF then 'x' :: hexDigits 2 code
        else if code ≤ 0xFFFF then 'u' :: hexDigits 4 code
        else 'U' :: hexDigits 8 code

/-- A string in double quotes. -/
def doubleQuoted (cs : List Char) : List Char := '"' :: cs.flatMap escape ++ ['"']

/-- The head of a literal block: the indentation is given when the text itself starts with a blank,
and marks say what becomes of the line breaks at its end. -/
def literalHead (cs : List Char) : List Char :=
  let indentation := if cs.head?.any (fun c => c = ' ' || isBreak c) then ['2'] else []
  let ending :=
    match cs.reverse with
    | [] => ['-']
    | last :: before =>
      if !isBreak last then ['-']
      else if before.head?.all isBreak then ['+'] else []
  '|' :: indentation ++ ending

/-- A string in a literal block. -/
def literal (indent : Nat) (cs : List Char) : List Char :=
  literalHead cs ++ '\n' :: indentLines indent true cs

/-- A string, with the indentation for its further lines, up to the end of its last line. -/
def scalarLine (indent : Nat) (s : String) : List Char :=
  let cs := s.toList
  match scalarStyle cs with
  | .plain => cs ++ ['\n']
  | .singleQuoted => singleQuoted indent cs ++ ['\n']
  | .doubleQuoted => doubleQuoted cs ++ ['\n']
  | .literal => literal indent cs ++ if cs.getLast?.any isBreak then [] else ['\n']

/-- Whether a key may stand on the line of its value: it is short and on one line. -/
def isSimpleKey (cs : List Char) : Bool :=
  !cs.any isBreak && Text.byteLength cs ≤ 128

/-- A key on the line of its value. -/
def simpleKey (indent : Nat) (cs : List Char) : List Char :=
  match scalarStyle cs with
  | .plain => cs
  | .singleQuoted => singleQuoted indent cs
  | _ => doubleQuoted cs

/-- Spaces for a level of indentation. -/
def margin (indent : Nat) : List Char := List.replicate indent ' '

/-- A key with its mark. -/
def writeKey (indent : Nat) (key : List Char) : List Char :=
  if isSimpleKey key then simpleKey (indent + 2) key ++ [':']
  else '?' :: ' ' :: scalarLine (indent + 2) (String.ofList key) ++ margin indent ++ [':']

/-- A value without parts, inside something indented by `indent`, to the end of its line. -/
def leaf (indent : Nat) : Value → List Char
  | .null => "null\n".toList
  | .bool b => (if b then "true\n" else "false\n").toList
  | .integer n => Json.integerText n ++ ['\n']
  | .real x => realStyle.write x ++ ['\n']
  | .text s => scalarLine (indent + 2) s
  | .list _ => "[]\n".toList
  | .record _ => "\x7b\x7d\n".toList

mutual
/-- A value on the line of its dash, inside something indented by `indent`. A list or record starts
on that line too. -/
def writeInline (indent : Nat) : Value → List Char
  | .list (item :: rest) =>
    '-' :: ' ' :: writeInline (indent + 2) item ++ writeItems (indent + 2) rest
  | .record ((key, value) :: rest) =>
    writeKey (indent + 2) key.toList ++ writeValue (indent + 2) key.toList value ++
      writeFields (indent + 2) rest
  | other => leaf indent other

/-- The items of a list, each on lines of its own. -/
def writeItems (indent : Nat) : List Value → List Char
  | [] => []
  | item :: rest => margin indent ++ '-' :: ' ' :: writeInline indent item ++ writeItems indent rest

/-- The fields of a record, each on lines of its own. -/
def writeFields (indent : Nat) : List (String × Value) → List Char
  | [] => []
  | (key, value) :: rest =>
    margin indent ++ writeKey indent key.toList ++ writeValue indent key.toList value ++
      writeFields indent rest

/-- The value of a field after its key. -/
def writeValue (indent : Nat) (key : List Char) : Value → List Char
  | .list (item :: rest) =>
    if isSimpleKey key then
      '\n' :: margin indent ++ '-' :: ' ' :: writeInline indent item ++ writeItems indent rest
    else ' ' :: '-' :: ' ' :: writeInline (indent + 2) item ++ writeItems (indent + 2) rest
  | .record ((inner, value) :: rest) =>
    let fields :=
      writeKey (indent + 2) inner.toList ++ writeValue (indent + 2) inner.toList value ++
        writeFields (indent + 2) rest
    if isSimpleKey key then '\n' :: margin (indent + 2) ++ fields else ' ' :: fields
  | other => ' ' :: leaf indent other
end

/-- The YAML text of a value. -/
def print (v : Value) : String :=
  String.ofList <|
    match v with
    | .record ((key, value) :: rest) => writeFields 0 ((key, value) :: rest)
    | .list (item :: rest) => writeItems 0 (item :: rest)
    | other => writeInline 0 other

end ElvishOutline.Yaml
