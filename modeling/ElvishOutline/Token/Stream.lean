import ElvishOutline.Token

/-!
# The contract between tokens and their script

Tokens may come from any lexer. The structural passes rely on two promises: every token lies
inside the script, and no token starts before the one ahead of it has ended. `checkTokens`
checks them in order and reports the first token that breaks one; a token that breaks both is
reported as lying outside.
-/

namespace ElvishOutline

/-- How tokens, or an offset asked about, can fail to fit their script. -/
inductive TokenStreamError where
  /-- The token with this index reaches past the end of the script. -/
  | outOfBounds (index start stop sourceLength : Nat)
  /-- The token with this index starts before the previous token has ended. -/
  | overlap (index start previousStop : Nat)
  /-- The offset lies past the end of the script. -/
  | offsetOutOfRange (offset sourceLength : Nat)
  deriving DecidableEq, Repr

/-- The text of the error. -/
def TokenStreamError.message : TokenStreamError → String
  | .outOfBounds index start stop sourceLength =>
    s!"token {index} spans {start}..{stop}, outside source of {sourceLength} bytes"
  | .overlap index start previousStop =>
    s!"token {index} starts at {start}, before the previous token ends at {previousStop}"
  | .offsetOutOfRange offset sourceLength =>
    s!"offset {offset} is outside source of {sourceLength} bytes"

/-- The greatest offset that can be written down. -/
def maxOffset : Nat := Nat.pow 2 64 - 1

/-- The end of a token as the check sees it: never past the greatest offset. -/
def Token.boundedStop (t : Token) : Nat := min t.stop maxOffset

/-- Checks the tokens from position `index` on, after a token that ended at `previousStop`. -/
def checkFrom (sourceLength index previousStop : Nat) : List Token → Except TokenStreamError Unit
  | [] => .ok ()
  | t :: ts =>
    if sourceLength < t.boundedStop then
      .error (.outOfBounds index t.start t.boundedStop sourceLength)
    else if t.start < previousStop then
      .error (.overlap index t.start previousStop)
    else checkFrom sourceLength (index + 1) t.boundedStop ts

/-- Checks that the tokens fit a script of the given length and do not overlap. -/
def checkTokens (tokens : List Token) (sourceLength : Nat) : Except TokenStreamError Unit :=
  checkFrom sourceLength 0 0 tokens

end ElvishOutline
