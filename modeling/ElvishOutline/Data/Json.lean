import ElvishOutline.Data.Value
import ElvishOutline.Decimal.Shortest

/-!
# JSON

Writing structured values as JSON and reading them back. Records keep the order of their fields. A
layout says whether each item stands on a line of its own. Numbers without point and exponent are
read as integers when 64 bits hold them, all others as binary64 numbers; numbers that JSON cannot
write are written as null.
-/

namespace ElvishOutline.Json

/-- Numbers are positional from the fifth decimal place to sixteen digits. -/
def realStyle : ShortestStyle where
  positionalFrom := -5
  positionalTo := 15
  positiveExponentSign := "+"
  nan := "null"
  infinity := "null"
  negativeInfinity := "null"

/-- A digit of base sixteen. -/
def hexDigit (n : Nat) : Char := if n < 10 then Char.ofNat (48 + n) else Char.ofNat (87 + n)

/-- How one character of a string is written. -/
def escape (c : Char) : List Char :=
  if c = '"' then ['\\', '"']
  else if c = '\\' then ['\\', '\\']
  else if c = '\x08' then ['\\', 'b']
  else if c = '\t' then ['\\', 't']
  else if c = '\n' then ['\\', 'n']
  else if c = '\x0c' then ['\\', 'f']
  else if c = '\r' then ['\\', 'r']
  else if c.toNat < 32 then
    ['\\', 'u', '0', '0', hexDigit (c.toNat / 16), hexDigit (c.toNat % 16)]
  else [c]

/-- A string with its quotes. -/
def quoted (s : String) : List Char := '"' :: s.toList.flatMap escape ++ ['"']

/-- Whether items stand on lines of their own, indented by two per level. -/
inductive Layout where
  | compact | pretty
  deriving DecidableEq, Repr

namespace Layout

/-- The text before an item at the given level. -/
def lineStart : Layout → Nat → List Char
  | compact, _ => []
  | pretty, level => '\n' :: List.replicate (2 * level) ' '

/-- The text between a key and its value. -/
def colon : Layout → List Char
  | compact => [':']
  | pretty => [':', ' ']

end Layout

/-- An integer in decimal digits. -/
def integerText (n : Int) : List Char :=
  if n < 0 then '-' :: Nat.toDigits 10 n.natAbs else Nat.toDigits 10 n.natAbs

mutual
/-- A value at the given level of indentation. -/
def write (layout : Layout) (level : Nat) : Value → List Char
  | .null => "null".toList
  | .bool b => (if b then "true" else "false").toList
  | .integer n => integerText n
  | .real x => realStyle.write x
  | .text s => quoted s
  | .list [] => ['[', ']']
  | .list (item :: rest) =>
    '[' :: layout.lineStart (level + 1) ++ write layout (level + 1) item ++
      writeItems layout (level + 1) rest ++ layout.lineStart level ++ [']']
  | .record [] => ['\x7b', '\x7d']
  | .record ((key, value) :: rest) =>
    '\x7b' :: layout.lineStart (level + 1) ++ quoted key ++ layout.colon ++
      write layout (level + 1) value ++ writeFields layout (level + 1) rest ++
      layout.lineStart level ++ ['\x7d']

/-- The further items of a list. -/
def writeItems (layout : Layout) (level : Nat) : List Value → List Char
  | [] => []
  | item :: rest =>
    ',' :: layout.lineStart level ++ write layout level item ++ writeItems layout level rest

/-- The further fields of a record. -/
def writeFields (layout : Layout) (level : Nat) : List (String × Value) → List Char
  | [] => []
  | (key, value) :: rest =>
    ',' :: layout.lineStart level ++ quoted key ++ layout.colon ++ write layout level value ++
      writeFields layout level rest
end

/-- The JSON text of a value. -/
def print (layout : Layout) (v : Value) : String := String.ofList (write layout 0 v)

/-- The blanks that may stand between the parts of a JSON text. -/
def isBlank (c : Char) : Bool := c = ' ' || c = '\t' || c = '\n' || c = '\r'

/-- The text after blanks. -/
def skipBlanks (cs : List Char) : List Char := cs.dropWhile isBlank

/-- The value of a digit of base sixteen. -/
def hexValue? (c : Char) : Option Nat :=
  if '0' ≤ c ∧ c ≤ '9' then some (c.toNat - 48)
  else if 'a' ≤ c ∧ c ≤ 'f' then some (c.toNat - 87)
  else if 'A' ≤ c ∧ c ≤ 'F' then some (c.toNat - 55)
  else none

/-- The number written by four digits of base sixteen. -/
def hexUnit? (a b c d : Char) : Option Nat := do
  let a ← hexValue? a
  let b ← hexValue? b
  let c ← hexValue? c
  let d ← hexValue? d
  return ((a * 16 + b) * 16 + c) * 16 + d

/-- The character that a letter after a backslash stands for. -/
def unescape? (c : Char) : Option Char :=
  if c = '"' ∨ c = '\\' ∨ c = '/' then some c
  else if c = 'b' then some '\x08'
  else if c = 't' then some '\t'
  else if c = 'n' then some '\n'
  else if c = 'f' then some '\x0c'
  else if c = 'r' then some '\r'
  else none

/-- The character beyond the basic plane that two surrogates stand for. -/
def joinSurrogates? (high low : Nat) : Option Char :=
  if 0xD800 ≤ high ∧ high < 0xDC00 ∧ 0xDC00 ≤ low ∧ low < 0xE000 then
    some (Char.ofNat (0x10000 + (high - 0xD800) * 1024 + (low - 0xDC00)))
  else none

/-- The characters of a string after its opening quote, and the text after its closing one. -/
def readString : List Char → Option (List Char × List Char)
  | '"' :: rest => some ([], rest)
  | '\\' :: 'u' :: a :: b :: c :: d :: '\\' :: 'u' :: e :: f :: g :: h :: rest => do
    let first ← hexUnit? a b c d
    let second ← hexUnit? e f g h
    match joinSurrogates? first second with
    | some joined =>
      let (cs, after) ← readString rest
      return (joined :: cs, after)
    | none =>
      -- A surrogate by itself stands for no character.
      if 0xD800 ≤ first ∧ first < 0xE000 then none
      else
        let (cs, after) ← readString ('\\' :: 'u' :: e :: f :: g :: h :: rest)
        return (Char.ofNat first :: cs, after)
  | '\\' :: 'u' :: a :: b :: c :: d :: rest => do
    let unit ← hexUnit? a b c d
    if 0xD800 ≤ unit ∧ unit < 0xE000 then none
    else
      let (cs, after) ← readString rest
      return (Char.ofNat unit :: cs, after)
  | '\\' :: c :: rest => do
    let plain ← unescape? c
    let (cs, after) ← readString rest
    return (plain :: cs, after)
  | c :: rest =>
    if c.toNat < 32 ∨ c = '\\' then none
    else do
      let (cs, after) ← readString rest
      return (c :: cs, after)
  | [] => none

/-- The number that decimal digits write. -/
def digitsValue (digits : List Char) : Nat :=
  digits.foldl (fun n c => 10 * n + (c.toNat - 48)) 0

/-- The exponent of a number, if one is written, and the text after it. -/
def readExponent (cs : List Char) : Option (Option Int × List Char) :=
  match cs with
  | e :: rest =>
    if e = 'e' ∨ e = 'E' then
      let (negative, digits) :=
        match rest with
        | '-' :: more => (true, more)
        | '+' :: more => (false, more)
        | more => (false, more)
      let power := digits.takeWhile Char.isDigit
      if power = [] then none
      else
        let size : Int := digitsValue power
        some (some (if negative then -size else size), digits.dropWhile Char.isDigit)
    else some (none, cs)
  | [] => some (none, [])

/-- The value of a number from its parts. -/
def numberValue (negative : Bool) (whole fraction : List Char) (power : Option Int) : Value :=
  let digits := digitsValue (whole ++ fraction)
  if fraction = [] ∧ power = none then
    if negative then
      if digits = 0 then .real (.zero true)
      else if digits ≤ Nat.pow 2 63 then .integer (-digits)
      else .real (.ofDecimal true digits 0)
    else if digits < Nat.pow 2 64 then .integer digits
    else .real (.ofDecimal false digits 0)
  else .real (.ofDecimal negative digits (power.getD 0 - fraction.length))

/-- A number at the start of a text. -/
def readNumber (cs : List Char) : Option (Value × List Char) := do
  let (negative, cs) :=
    match cs with
    | '-' :: rest => (true, rest)
    | rest => (false, rest)
  let whole := cs.takeWhile Char.isDigit
  let rest := cs.dropWhile Char.isDigit
  if whole = [] ∨ (whole.head? = some '0' ∧ whole.length ≠ 1) then none
  else
    let (fraction, rest) ←
      match rest with
      | '.' :: more =>
        let places := more.takeWhile Char.isDigit
        if places = [] then none else some (places, more.dropWhile Char.isDigit)
      | more => some ([], more)
    let (power, rest) ← readExponent rest
    return (numberValue negative whole fraction power, rest)

/-- The text after a word that stands at its start. -/
def afterWord? (word : List Char) (cs : List Char) : Option (List Char) :=
  if word.isPrefixOf cs then some (cs.drop word.length) else none

mutual
/-- A value at the start of a text, read within `fuel` nested steps. -/
def readValue (fuel : Nat) (cs : List Char) : Option (Value × List Char) :=
  match fuel with
  | 0 => none
  | fuel + 1 =>
    match skipBlanks cs with
    | '\x7b' :: rest =>
      match skipBlanks rest with
      | '\x7d' :: after => some (.record [], after)
      | '"' :: more => do
        let (fields, after) ← readFields fuel more
        return (.record fields, after)
      | _ => none
    | '[' :: rest =>
      match skipBlanks rest with
      | ']' :: after => some (.list [], after)
      | more => do
        let (items, after) ← readItems fuel more
        return (.list items, after)
    | '"' :: rest => do
      let (s, after) ← readString rest
      return (.text (String.ofList s), after)
    | rest =>
      match afterWord? "null".toList rest with
      | some after => some (.null, after)
      | none =>
        match afterWord? "true".toList rest with
        | some after => some (.bool true, after)
        | none =>
          match afterWord? "false".toList rest with
          | some after => some (.bool false, after)
          | none => readNumber rest

/-- The items of a list, up to its closing bracket. -/
def readItems (fuel : Nat) (cs : List Char) : Option (List Value × List Char) :=
  match fuel with
  | 0 => none
  | fuel + 1 => do
    let (item, rest) ← readValue fuel cs
    match skipBlanks rest with
    | ',' :: more => do
      let (items, after) ← readItems fuel more
      return (item :: items, after)
    | ']' :: after => some ([item], after)
    | _ => none

/-- The fields of a record after the quote of the first key, up to its closing brace. -/
def readFields (fuel : Nat) (cs : List Char) : Option (List (String × Value) × List Char) :=
  match fuel with
  | 0 => none
  | fuel + 1 => do
    let (key, rest) ← readString cs
    match skipBlanks rest with
    | ':' :: more => do
      let (value, rest) ← readValue fuel more
      match skipBlanks rest with
      | ',' :: more =>
        match skipBlanks more with
        | '"' :: next => do
          let (fields, after) ← readFields fuel next
          return ((String.ofList key, value) :: fields, after)
        | _ => none
      | '\x7d' :: after => some ([(String.ofList key, value)], after)
      | _ => none
    | _ => none
end

/-- The value that a JSON text writes. Each nested step takes a character, so a text is never longer
to read than it has characters. -/
def parse? (text : String) : Option Value :=
  let cs := text.toList
  match readValue (cs.length + 1) cs with
  | some (value, rest) => if skipBlanks rest = [] then some value else none
  | none => none

end ElvishOutline.Json
