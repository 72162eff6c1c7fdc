/-
Character classes of eight-bit encodings.

A class is a character set, with or without the codes that end a line: text with line ends in it
is still one string.  Screen memory has no such codes.
-/
import Disasm65.Format.Kind

namespace Disasm65

/-- A set of byte values with a glyph. -/
inductive Charset where
  /-- ASCII, high bit clear -/
  | lowAscii
  /-- ASCII, high bit set -/
  | highAscii
  /-- ASCII with either high bit -/
  | eitherAscii
  /-- PETSCII: digits, punctuation, both ranges of letters, brackets and the pound sign -/
  | petscii
  /-- screen codes of glyphs that are not reversed -/
  | screenCode
deriving DecidableEq

namespace Charset

/-- The byte is a glyph of ASCII, high bit clear. -/
def isLowGlyph (b : UInt8) : Bool := 0x20 ≤ b && b < 0x7f

/-- The byte is a glyph of ASCII, high bit set. -/
def isHighGlyph (b : UInt8) : Bool := 0xa0 ≤ b && b < 0xff

/-- The byte ends a line of ASCII, high bit clear. -/
def isLowLineEnd (b : UInt8) : Bool := b == 0x0a || b == 0x0d

/-- The byte ends a line of ASCII, high bit set. -/
def isHighLineEnd (b : UInt8) : Bool := b == 0x8a || b == 0x8d

/-- The byte is a glyph of the set. -/
def isGlyph (charset : Charset) (b : UInt8) : Bool :=
  match charset with
  | .lowAscii => isLowGlyph b
  | .highAscii => isHighGlyph b
  | .eitherAscii => isLowGlyph b || isHighGlyph b
  | .petscii => (0x20 ≤ b && b ≤ 0x5d) || (0xc1 ≤ b && b ≤ 0xda)
  | .screenCode => b ≤ 0x1d || (0x20 ≤ b && b ≤ 0x3f) || (0x41 ≤ b && b ≤ 0x5a)

/-- The byte ends a line of text in the set. -/
def isLineEnd (charset : Charset) (b : UInt8) : Bool :=
  match charset with
  | .lowAscii => isLowLineEnd b
  | .highAscii => isHighLineEnd b
  | .eitherAscii => isLowLineEnd b || isHighLineEnd b
  | .petscii => b == 0x0d
  | .screenCode => false

/-- The detail of a string in this character set. -/
def detail : Charset → FormatDetail
  | .lowAscii => .ascii
  | .highAscii => .highAscii
  | .eitherAscii => .anyAscii
  | .petscii => .petscii
  | .screenCode => .screenCode

/-- The set a string belongs to once its first byte is known: a string keeps one high bit. -/
def refine (charset : Charset) (first : UInt8) : Charset :=
  match charset with
  | .eitherAscii =>
    if isLowGlyph first || isLowLineEnd first then .lowAscii else .highAscii
  | _ => charset

end Charset

/-- A character set, with or without line ends. -/
structure CharClass where
  charset : Charset
  withLineEnds : Bool
deriving DecidableEq

namespace CharClass

/-- The byte is in the class. -/
def accepts (cls : CharClass) (b : UInt8) : Bool :=
  cls.charset.isGlyph b || (cls.withLineEnds && cls.charset.isLineEnd b)

/-- The glyphs and line ends of a character set. -/
def extended (charset : Charset) : CharClass := ⟨charset, true⟩

end CharClass

end Disasm65
