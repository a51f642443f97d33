import MemberOrder.Text.Alphabetic
import MemberOrder.Text.Mark
import MemberOrder.Text.Number

/-! # Characters of names

Two classes of characters make up names. The *identifier* characters decide
whether a line opens a construct. The *word* characters decide how far a
declared name reaches. Both hold the letters, the digits and the underscore
of ASCII; they differ in marks, connectors, unusual numbers and the latest
letters. -/

namespace MemberOrder

/-- The ranges of `Connector_Punctuation`, the underscore first. -/
def connector : List CharRange := [
  (0x5F, 0x5F), (0x203F, 0x2040), (0x2054, 0x2054), (0xFE33, 0xFE34), (0xFE4D, 0xFE4F),
  (0xFF3F, 0xFF3F)]

/-- The range of `Join_Control`: the zero-width joiner and non-joiner. -/
def joinControl : List CharRange := [(0x200C, 0x200D)]

/-- Letters, numbers of every kind and the underscore. -/
def isIdentifierChar (c : Char) : Bool :=
  c == '_' || inRanges decimalNumber c || inRanges alphabetic c || inRanges otherNumber c

/-- The letters, marks and digits that have come with version 17 of Unicode. -/
def latest : List CharRange := [
  (0x88F, 0x88F), (0xC5C, 0xC5C), (0xCDC, 0xCDC), (0x1ACF, 0x1ADD), (0x1AE0, 0x1AEB),
  (0xA7CE, 0xA7CF), (0xA7D2, 0xA7D2), (0xA7D4, 0xA7D4), (0xA7F1, 0xA7F1), (0x10940, 0x10959),
  (0x10EC5, 0x10EC7), (0x10EFA, 0x10EFB), (0x11B60, 0x11B67), (0x11DB0, 0x11DDB),
  (0x11DE0, 0x11DE9), (0x16EA0, 0x16EB8), (0x16EBB, 0x16ED3), (0x16FF2, 0x16FF6),
  (0x187F8, 0x187FF), (0x18D09, 0x18D1E), (0x18D80, 0x18DF2), (0x1E6C0, 0x1E6DE),
  (0x1E6E0, 0x1E6F5), (0x1E6FE, 0x1E6FF), (0x2B73A, 0x2B73F), (0x2CEA2, 0x2CEAD),
  (0x323B0, 0x33479)]

/-- Letters, marks, digits, connectors and joiners, as version 16 of Unicode
has them. -/
def isWordChar (c : Char) : Bool :=
  (inRanges connector c || inRanges decimalNumber c || inRanges alphabetic c || inRanges mark c ||
    inRanges joinControl c) && !inRanges latest c

end MemberOrder
