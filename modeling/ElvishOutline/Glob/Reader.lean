import ElvishOutline.Glob

/-!
# Reading glob patterns

A pattern is read from left to right. The tokens read so far are kept last first, together with the
groups that are still open. What two stars mean depends on their neighbours.
-/

namespace ElvishOutline

/-- Why a text is not a glob pattern. -/
inductive GlobError where
  | unclosedClass
  | backwardRange (low high : Char)
  | unopenedGroup
  | unclosedGroup
  | danglingEscape
  deriving DecidableEq, Repr

/-- The reason in words. -/
def GlobError.reason : GlobError → String
  | .unclosedClass => "unclosed character class; missing ']'"
  | .backwardRange low high =>
    "invalid range; '" ++ String.singleton low ++ "' > '" ++ String.singleton high ++ "'"
  | .unopenedGroup =>
    "unopened alternate group; missing '\x7b' (maybe escape '\x7d' with '[\x7d]'?)"
  | .unclosedGroup =>
    "unclosed alternate group; missing '\x7d' (maybe escape '\x7b' with '[\x7b]'?)"
  | .danglingEscape => "dangling '\\'"

/-- The text of the error for the pattern that was to be read. -/
def GlobError.message (e : GlobError) (pattern : String) : String :=
  "error parsing glob '" ++ pattern ++ "': " ++ e.reason

namespace Glob

/-- A group that is still open: the tokens before it, last first, and its finished branches, last
first. -/
structure OpenGroup where
  before : List GlobToken
  branches : List (List GlobToken)

/-- How far a pattern was read: the tokens of the current branch, last first, and the open groups,
innermost first. -/
structure Reading where
  tokens : List GlobToken
  groups : List OpenGroup

namespace Reading

/-- Adds a token. -/
def push (r : Reading) (token : GlobToken) : Reading := { r with tokens := token :: r.tokens }

/-- Two stars after a slash take the place of the slash. After leading directories or everything
below a directory they add nothing. -/
def replaceLast (r : Reading) (token : GlobToken) : Reading :=
  match r.tokens with
  | .leadingDirectories :: _ => r
  | .everythingBelow :: _ => r
  | tokens => { r with tokens := token :: tokens.drop 1 }

/-- Opens a group. -/
def openGroup (r : Reading) : Reading := ⟨[], ⟨r.tokens, []⟩ :: r.groups⟩

/-- Starts the next branch of the innermost group; outside of groups a comma is a character. -/
def nextBranch (r : Reading) : Reading :=
  match r.groups with
  | [] => r.push (.literal ',')
  | g :: outer => ⟨[], { g with branches := r.tokens.reverse :: g.branches } :: outer⟩

/-- Closes the innermost group. -/
def closeGroup? (r : Reading) : Option Reading :=
  match r.groups with
  | [] => none
  | g :: outer =>
    some ⟨.alternatives (r.tokens.reverse :: g.branches).reverse :: g.before, outer⟩

end Reading

/-- What two stars mean. -/
inductive DoubleStar where
  | leading | middle | below
  /-- Two single stars. -/
  | separate
  deriving DecidableEq, Repr

/-- The meaning of two stars between two characters. -/
def doubleStar (r : Reading) (before after : Option Char) : DoubleStar :=
  let grouped := !r.groups.isEmpty
  if r.tokens.isEmpty then
    if after = none || after = some '/' then .leading else .separate
  else if before ≠ some '/' && !(grouped && (before = some ',' || before = some '\x7b')) then
    .separate
  else if after = none || (grouped && (after = some ',' || after = some '\x7d')) then .below
  else if after = some '/' then .middle
  else .separate

/-- The result of reading a class. -/
inductive ClassReading where
  | unclosed
  | backward (low high : Char)
  | closed (ranges : List (Char × Char)) (rest : List Char)

/-- Reads a class, after its bracket and its negation. `atStart` holds before its first character,
and `ranged` after a dash that can make a range with the last character. The ranges are given last
first. -/
def readClass (atStart ranged : Bool) (ranges : List (Char × Char)) : List Char → ClassReading
  | [] => .unclosed
  | c :: cs =>
    if c = ']' && !atStart then
      .closed (if ranged then ('-', '-') :: ranges else ranges).reverse cs
    else if c = '-' && !atStart && !ranged then readClass false true ranges cs
    else
      match ranged, ranges with
      | true, (low, _) :: others =>
        if c < low then .backward low c else readClass false false ((low, c) :: others) cs
      | _, _ => readClass false false ((c, c) :: ranges) cs

/-- A class that is read leaves less to read. -/
theorem length_lt_of_readClass {atStart ranged : Bool} {ranges found : List (Char × Char)}
    {cs rest : List Char} (h : readClass atStart ranged ranges cs = .closed found rest) :
    rest.length < cs.length := by
  induction cs generalizing atStart ranged ranges with
  | nil => simp [readClass] at h
  | cons c cs ih =>
    have shorter {n : Nat} (hn : n < cs.length) : n < (c :: cs).length := by
      simp only [List.length_cons]; omega
    rw [readClass.eq_def] at h
    simp only at h
    split at h
    · cases h; simp
    · split at h
      · exact shorter (ih h)
      · split at h
        · split at h
          · cases h
          · exact shorter (ih h)
        · exact shorter (ih h)

/-- Whether a class is negated, and what follows the mark. -/
def negation : List Char → Bool × List Char
  | '!' :: cs => (true, cs)
  | '^' :: cs => (true, cs)
  | cs => (false, cs)

/-- The mark that inverts a class is one character at most, so reading it leaves no more than there
was. -/
theorem negation_length_le (cs : List Char) : (negation cs).2.length ≤ cs.length := by
  unfold negation
  split <;> simp

/-- Reads the rest of a pattern. `classes` says whether a bracket can open a class, and `before` is
the character before the rest. -/
def readFrom (dialect : GlobDialect) (classes : Bool) (r : Reading) (before : Option Char) :
    List Char → Except GlobError (List GlobToken)
  | [] => if r.groups.isEmpty then .ok r.tokens.reverse else .error .unclosedGroup
  | '*' :: '*' :: cs =>
    match doubleStar r before cs.head? with
    | .leading => readFrom dialect classes (r.push .leadingDirectories) cs.head? (cs.drop 1)
    | .middle => readFrom dialect classes (r.replaceLast .middleDirectories) cs.head? (cs.drop 1)
    | .below => readFrom dialect classes (r.replaceLast .everythingBelow) (some '*') cs
    | .separate => readFrom dialect classes ((r.push .star).push .star) (some '*') cs
  | '*' :: cs => readFrom dialect classes (r.push .star) (some '*') cs
  | '?' :: cs => readFrom dialect classes (r.push .any) (some '?') cs
  | '\x7b' :: cs => readFrom dialect classes r.openGroup (some '\x7b') cs
  | ',' :: cs => readFrom dialect classes r.nextBranch (some ',') cs
  | '\x7d' :: cs =>
    match r.closeGroup? with
    | none => .error .unopenedGroup
    | some closed => readFrom dialect classes closed (some '\x7d') cs
  | '\\' :: [] => .error .danglingEscape
  | '\\' :: c :: cs => readFrom dialect classes (r.push (.literal c)) (some c) cs
  | c :: cs =>
    if c = '[' && classes then
      match h : readClass true false [] (negation cs).2 with
      | .backward low high => .error (.backwardRange low high)
      | .closed ranges rest =>
        have := length_lt_of_readClass h
        have := negation_length_le cs
        readFrom dialect classes (r.push (.oneOf (negation cs).1 ranges)) (some ']') rest
      | .unclosed =>
        -- Behind it no class is closed, so no further bracket opens one.
        if dialect.openClassIsLiteral then
          readFrom dialect false (r.push (.literal c)) (some c) cs
        else .error .unclosedClass
    else readFrom dialect classes (r.push (.literal c)) (some c) cs
termination_by cs => cs.length
decreasing_by
  all_goals
    simp only [List.length_cons, List.length_drop]
    omega

/-- The pattern that a text writes. -/
def parse (dialect : GlobDialect) (pattern : String) : Except GlobError Glob :=
  (readFrom dialect true ⟨[], []⟩ none pattern.toList).map fun tokens => ⟨dialect, tokens⟩

end Glob

end ElvishOutline
