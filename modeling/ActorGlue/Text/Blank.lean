import ActorGlue.Text.Ranges

/-!
# White space

The blank characters between tokens, and trimming by them.
-/

namespace ActorGlue.Text

/-- White space: the separators and the control characters that end lines, fields or paragraphs. -/
def blankRanges : Ranges := [
  (0x9, 0xd), (0x1c, 0x20), (0x85, 0x85), (0xa0, 0xa0), (0x1680, 0x1680), (0x2000, 0x200a),
  (0x2028, 0x2029), (0x202f, 0x202f), (0x205f, 0x205f), (0x3000, 0x3000)]

/-- White space. -/
def isBlank (c : Char) : Bool :=
  blankRanges.holds c

/-- White space other than the separators of files, groups, records and units. -/
def isPlainBlank (c : Char) : Bool :=
  isBlank c && !(0x1c ≤ c.toNat && c.toNat ≤ 0x1f)

/-- The text without the white space at both ends. -/
def trim (text : List Char) : List Char :=
  ((text.dropWhile isBlank).reverse.dropWhile isBlank).reverse

end ActorGlue.Text
