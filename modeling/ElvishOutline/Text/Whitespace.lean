import ElvishOutline.Text.CodeRanges

/-!
# White space

The Unicode property White_Space, for trimming lines of ignore files.
-/

namespace ElvishOutline.Text

/-- The code points of white space, in increasing order. -/
def whitespaceRanges : List CodeRange := CodeRange.ofPairs
  [(0x9, 0xD), (0x20, 0x20), (0x85, 0x85), (0xA0, 0xA0), (0x1680, 0x1680), (0x2000, 0x200A),
    (0x2028, 0x2029), (0x202F, 0x202F), (0x205F, 0x205F), (0x3000, 0x3000)]

/-- Whether a character is white space. -/
def isWhitespace (c : Char) : Bool := inRanges whitespaceRanges c.toNat

/-- A text without the white space at its end. -/
def trimEnd (cs : List Char) : List Char := (cs.reverse.dropWhile isWhitespace).reverse

end ElvishOutline.Text
