import ElvishOutline.Text.Utf8

/-!
# Glob patterns

A pattern is a list of tokens that is matched with the bytes of a whole path. A question mark stands
for one byte and a star for any number of them; in one dialect they stop at a slash, in the other
they do not. Two stars between slashes stand for any number of directories. A class of characters
is a class of bytes: a wide character adds each of its bytes.

Matching computes what tokens can leave of a text. A pattern matches when its tokens together can
leave nothing.
-/

namespace ElvishOutline

/-- The parts of a glob pattern. -/
inductive GlobToken where
  /-- The character itself. -/
  | literal (c : Char)
  /-- One byte. -/
  | any
  /-- Any number of bytes. -/
  | star
  /-- Any number of directories at the start. -/
  | leadingDirectories
  /-- Any number of directories between two names. -/
  | middleDirectories
  /-- Everything below a directory. -/
  | everythingBelow
  /-- One byte in a class, or outside it. -/
  | oneOf (negated : Bool) (ranges : List (Char × Char))
  /-- One of several patterns. -/
  | alternatives (branches : List (List GlobToken))
  deriving Repr

/-- What patterns of one sort mean. -/
structure GlobDialect where
  /-- Whether a star and a question mark can stand for a slash. -/
  crossesSlash : Bool
  /-- Whether the bracket of a class without an end stands for itself. -/
  openClassIsLiteral : Bool
  deriving DecidableEq, Repr

/-- A pattern in its dialect. -/
structure Glob where
  dialect : GlobDialect
  tokens : List GlobToken
  deriving Repr

namespace Glob

/-- The byte of a slash. -/
def slash : UInt8 := 47

/-- What is left of a text after each number of leading bytes that satisfy `p`. -/
def skips (p : UInt8 → Bool) : List UInt8 → List (List UInt8)
  | [] => [[]]
  | b :: bs => (b :: bs) :: if p b then skips p bs else []

/-- Without a condition, every end of a text can be left. -/
theorem mem_skips_true {rest text : List UInt8} :
    rest ∈ skips (fun _ => true) text ↔ rest <:+ text := by
  induction text with
  | nil => simp [skips]
  | cons b bs ih => simp [skips, ih, List.suffix_cons_iff]

/-- What follows each slash of a text. -/
def afterSlashes : List UInt8 → List (List UInt8)
  | [] => []
  | b :: bs => if b = slash then bs :: afterSlashes bs else afterSlashes bs

/-- A text follows a slash exactly when the slash and some bytes stand before it. -/
theorem mem_afterSlashes {rest text : List UInt8} :
    rest ∈ afterSlashes text ↔ ∃ before, text = before ++ slash :: rest := by
  induction text with
  | nil => simp [afterSlashes]
  | cons b bs ih =>
    have later : (∃ before, b :: bs = before ++ slash :: rest) ↔
        (b = slash ∧ bs = rest) ∨ ∃ before, bs = before ++ slash :: rest := by
      constructor
      · rintro ⟨before, h⟩
        cases before with
        | nil => exact .inl (List.cons.inj h)
        | cons c before => exact .inr ⟨before, (List.cons.inj h).2⟩
      · rintro (⟨hb, hbs⟩ | ⟨before, h⟩)
        · exact ⟨[], by rw [hb, hbs]; rfl⟩
        · exact ⟨b :: before, by rw [h]; rfl⟩
    rw [later, ← ih, afterSlashes]
    by_cases h : b = slash
    · simp [h, eq_comm]
    · simp [h]

/-- What is left of a text after one byte that satisfies `p`. -/
def afterOne (p : UInt8 → Bool) : List UInt8 → List (List UInt8)
  | [] => []
  | b :: bs => if p b then [bs] else []

/-- What is left of a text after the given bytes. -/
def afterBytes (bytes text : List UInt8) : List (List UInt8) :=
  if bytes.isPrefixOf text then [text.drop bytes.length] else []

/-- The byte ranges of a range of characters. The range runs from the last byte of its first
character to the first byte of its last one, and the other bytes stand for themselves. -/
def byteRanges (range : Char × Char) : List (UInt8 × UInt8) :=
  let low := String.utf8EncodeChar range.1
  let high := String.utf8EncodeChar range.2
  if range.1 = range.2 then low.map fun b => (b, b)
  else
    low.dropLast.map (fun b => (b, b)) ++ [(low.getLastD 0, high.headD 0)] ++
      high.tail.map fun b => (b, b)

/-- Whether a class of characters has a byte. -/
def inClass (negated : Bool) (ranges : List (Char × Char)) (b : UInt8) : Bool :=
  negated != (ranges.flatMap byteRanges).any fun (low, high) => low ≤ b && b ≤ high

mutual
/-- Whether a token has no content: a group of branches without content. -/
def isVoid : GlobToken → Bool
  | .alternatives branches => allBranchesVoid branches
  | _ => false

/-- Whether a list of tokens has no content. -/
def isVoidSequence : List GlobToken → Bool
  | [] => true
  | token :: rest => isVoid token && isVoidSequence rest

/-- Whether no branch has content. -/
def allBranchesVoid : List (List GlobToken) → Bool
  | [] => true
  | branch :: rest => isVoidSequence branch && allBranchesVoid rest
end

mutual
/-- What a token can leave of a text. -/
def remainders (dialect : GlobDialect) : GlobToken → List UInt8 → List (List UInt8)
  | .literal c, text => afterBytes (String.utf8EncodeChar c) text
  | .any, text => afterOne (fun b => dialect.crossesSlash || b != slash) text
  | .star, text => skips (fun b => dialect.crossesSlash || b != slash) text
  | .leadingDirectories, text => text :: afterSlashes text
  | .middleDirectories, text =>
    (afterBytes [slash] text).flatMap fun rest => rest :: afterSlashes rest
  | .everythingBelow, text => (afterBytes [slash] text).flatMap (skips fun _ => true)
  | .oneOf negated ranges, text => afterOne (inClass negated ranges) text
  | .alternatives branches, text =>
    if allBranchesVoid branches then [text] else branchRemainders dialect branches text

/-- What a list of tokens can leave of one of several texts. -/
def sequenceRemainders (dialect : GlobDialect) :
    List GlobToken → List (List UInt8) → List (List UInt8)
  | [], texts => texts
  | token :: rest, texts =>
    sequenceRemainders dialect rest
      (texts.flatMap fun text => remainders dialect token text).eraseDups

/-- What one of several branches can leave of a text. Branches without content do not count. -/
def branchRemainders (dialect : GlobDialect) :
    List (List GlobToken) → List UInt8 → List (List UInt8)
  | [], _ => []
  | branch :: rest, text =>
    (if isVoidSequence branch then [] else sequenceRemainders dialect branch [text]) ++
      branchRemainders dialect rest text
end

/-- Whether a token is a character that stands for itself. -/
def isLiteral : GlobToken → Bool
  | .literal _ => true
  | _ => false

/-- Whether a token is the given character. -/
def isCharacter (c : Char) : GlobToken → Bool
  | .literal d => c = d
  | _ => false

/-- Whether a token is a star. -/
def isStar : GlobToken → Bool
  | .star => true
  | _ => false

/-- Whether a token stands for leading directories. -/
def isLeading : GlobToken → Bool
  | .leadingDirectories => true
  | _ => false

/-- Whether a pattern that ends in a dot asks for a name in some directory. A text of its own, and a
tail of a path with more than one name or more than the dot, is compared with the path itself. -/
def asksForDottedName (g : Glob) : Bool :=
  let leading := g.tokens.head?.any isLeading
  let rest := if leading then g.tokens.drop 1 else g.tokens
  let starred := g.dialect.crossesSlash && rest.head?.any isStar
  let tail := if starred then rest.drop 1 else rest
  g.tokens.getLast?.any (isCharacter '.') &&
    (!tail.all isLiteral ||
      if starred then tail.length = 1 else leading && !tail.any (isCharacter '/'))

/-- Whether the last name of a path is the parent directory, which is not the name of an entry. -/
def endsInParent (text : List UInt8) : Bool :=
  text.reverse.takeWhile (· != slash) = [46, 46]

/-- Whether a pattern matches a path. Leading directories alone match every path. -/
def accepts (g : Glob) (path : String) : Bool :=
  let text := Text.utf8 path.toList
  match g.tokens with
  | [.leadingDirectories] => true
  | tokens =>
    (sequenceRemainders g.dialect tokens [text]).contains [] &&
      !(endsInParent text && g.asksForDottedName)

end Glob

end ElvishOutline
