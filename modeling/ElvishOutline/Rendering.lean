import ElvishOutline.Fold

/-!
# Folded scripts

A script is written with its outermost fold regions collapsed. Regions are taken in the order given;
one that starts before the text written so far, or ends past the script, is left as it is. Where a
collapsed region is the last thing on its line, a comment says how many lines it hides.
-/

namespace ElvishOutline

open Text (byteLength dropBytes isBoundary slice)

/-- Why a script could not be cut at the ends of a region. -/
inductive CutError where
  /-- The offset lies inside a character. -/
  | insideCharacter (offset : Nat)
  /-- The offset lies past the end of the script. -/
  | pastEnd (offset : Nat)
  deriving DecidableEq, Repr

/-- The text of the error. -/
def CutError.message : CutError → String
  | .insideCharacter offset => "offset " ++ toString offset ++ " is inside a character"
  | .pastEnd offset => "offset " ++ toString offset ++ " is past the end of the script"

/-- How placeholders are written: as plain text, or coloured for a terminal. -/
inductive Palette where
  | plain | ansi
  deriving DecidableEq, Repr

/-- The control sequences for colours and weights of text. -/
def sgr (code : String) : String := "\x1b[" ++ code ++ "m"

/-- The colour of a placeholder. -/
def Fold.color (fold : Fold) : String :=
  match fold.delimiter, fold.context with
  | .bracket, _ => sgr "36"
  | .brace, some (.block .function) => sgr "34"
  | .brace, some .lambda => sgr "35"
  | .brace, some (.block .tryBlock) => sgr "31"
  | .brace, some (.block .catchBlock) => sgr "31"
  | .brace, some (.block .finallyBlock) => sgr "31"
  | .brace, some (.block _) => sgr "33"
  | .brace, _ => sgr "90"

/-- What is written for a region. The note is left out unless the region ends its line. -/
def Fold.collapsedText (fold : Fold) (palette : Palette) (endsLine : Bool) : String :=
  let note := if endsLine then " # " ++ toString fold.hiddenLines ++ " lines folded" else ""
  match palette with
  | .plain => fold.placeholder ++ note
  | .ansi => fold.color ++ fold.placeholder ++ sgr "0" ++ sgr "2" ++ note ++ sgr "0"

/-- Whether a line ends where the rest of the text starts. -/
def endsLine (rest : List Char) : Bool :=
  match rest with
  | [] => true
  | c :: _ => c = '\n' || c = '\r'

/-- The text from the byte `current` on, with regions collapsed. -/
def renderFrom (palette : Palette) (text : List Char) (current : Nat) :
    List Fold → Except CutError (List Char)
  | [] => .ok (dropBytes current text)
  | fold :: rest =>
    if fold.start < current ∨ byteLength text < fold.stop then
      renderFrom palette text current rest
    else if byteLength text < fold.start then .error (.pastEnd fold.start)
    else if !isBoundary fold.stop text then .error (.insideCharacter fold.stop)
    else do
      let later ← renderFrom palette text fold.stop rest
      let shown := fold.collapsedText palette (endsLine (dropBytes fold.stop text))
      return slice current fold.start text ++ shown.toList ++ later

/-- A script with its outermost regions collapsed. -/
def render (palette : Palette) (source : String) (folds : List Fold) :
    Except CutError String :=
  (renderFrom palette source.toList 0 folds).map String.ofList

end ElvishOutline
