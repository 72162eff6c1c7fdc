/-
The vocabulary of formats: what a run of bytes is shown as.

A format has a kind (a number, a string with some framing, a fill, ...) and a detail that
qualifies it (the base, the character set, an alignment).  Which details go with which kinds is
decided where formats are built.
-/

namespace Disasm65

/-- What a run of bytes is taken for. -/
inductive FormatKind where
  /-- one byte, nothing said about it -/
  | unformatted
  /-- a number of one to four bytes, low byte first -/
  | littleEndian
  /-- a number of one to four bytes, high byte first -/
  | bigEndian
  /-- a character string -/
  | text
  /-- a character string stored back to front -/
  | reversedText
  /-- a string that ends at its only zero byte -/
  | nullTerminated
  /-- a string after its length in one byte -/
  | length8
  /-- a string after its length in two bytes, low byte first -/
  | length16
  /-- a string whose last byte has the high bit flipped -/
  | dci
  /-- raw bytes, shown as tightly as possible -/
  | dense
  /-- one byte value repeated -/
  | fill
  /-- bytes without meaning, perhaps there to align what follows -/
  | junk
deriving DecidableEq

namespace FormatKind

/-- Every kind. -/
def all : List FormatKind :=
  [.unformatted, .littleEndian, .bigEndian, .text, .reversedText, .nullTerminated, .length8,
   .length16, .dci, .dense, .fill, .junk]

def name : FormatKind → String
  | .unformatted => "Default"
  | .littleEndian => "NumericLE"
  | .bigEndian => "NumericBE"
  | .text => "StringGeneric"
  | .reversedText => "StringReverse"
  | .nullTerminated => "StringNullTerm"
  | .length8 => "StringL8"
  | .length16 => "StringL16"
  | .dci => "StringDci"
  | .dense => "Dense"
  | .fill => "Fill"
  | .junk => "Junk"

def isNumeric : FormatKind → Bool
  | .littleEndian | .bigEndian => true
  | _ => false

def isString : FormatKind → Bool
  | .text | .reversedText | .nullTerminated | .length8 | .length16 | .dci => true
  | _ => false

end FormatKind

/-- What qualifies a kind. -/
inductive FormatDetail where
  | plain
  /-- characters of an encoding that is not known yet -/
  | anyAscii
  | hex
  | decimal
  | binary
  /-- an address that no label stands for yet -/
  | address
  /-- a reference to a label -/
  | symbol
  /-- ASCII with the high bit clear -/
  | ascii
  /-- ASCII with the high bit set -/
  | highAscii
  | petscii
  | screenCode
  | ignore
  /-- filler up to a multiple of `2 <<< exponent` -/
  | align (exponent : Fin 16)
deriving DecidableEq

namespace FormatDetail

/-- Every detail, alignments last and smallest first. -/
def all : List FormatDetail :=
  [.plain, .anyAscii, .hex, .decimal, .binary, .address, .symbol, .ascii, .highAscii, .petscii,
   .screenCode, .ignore] ++ (List.finRange 16).map .align

/-- The alignment in bytes, for a detail that is one. -/
def alignment? : FormatDetail → Option Nat
  | .align exponent => some (2 <<< exponent.val)
  | _ => none

def isAlignment (detail : FormatDetail) : Bool := detail.alignment?.isSome

def name : FormatDetail → String
  | .plain => "None"
  | .anyAscii => "AsciiGeneric"
  | .hex => "Hex"
  | .decimal => "Decimal"
  | .binary => "Binary"
  | .address => "Address"
  | .symbol => "Symbol"
  | .ascii => "Ascii"
  | .highAscii => "HighAscii"
  | .petscii => "C64Petscii"
  | .screenCode => "C64Screen"
  | .ignore => "Ignore"
  | .align exponent => "Align" ++ Nat.repr (2 <<< exponent.val)

/-- The detail that aligns to `bytes`, when there is one. -/
def ofAlignment? (bytes : Nat) : Option FormatDetail :=
  ((List.finRange 16).find? fun exponent => 2 <<< exponent.val == bytes).map .align

/-- The detail that shows numbers in base 2, 10 or 16; any other base is shown as 16. -/
def ofBase : Nat → FormatDetail
  | 2 => .binary
  | 10 => .decimal
  | _ => .hex

/-- Details that name a character encoding, known or not. -/
def isCharacter : FormatDetail → Bool
  | .anyAscii | .ascii | .highAscii | .petscii | .screenCode => true
  | _ => false

end FormatDetail

end Disasm65
