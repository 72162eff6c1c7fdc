/-
The bytes of an image and the numbers they spell.

A number read from the image is a 32-bit word: of a longer run of bytes only the four least
significant ones count.  `readWord` reads at a place of the image, `fetchWord` at any offset.
-/
import Disasm65.Text.Hex
import Disasm65.Word

namespace Disasm65

/-- The bytes under analysis. -/
abbrev Image := Array UInt8

namespace Image

/-- The bytes that pairs of hexadecimal digits spell. -/
def bytesOfHex? : List Char → Option (List UInt8)
  | [] => some []
  | [_] => none
  | high :: low :: rest => do
    let byte ← hexValue? [high, low]
    return UInt8.ofNat byte :: (← bytesOfHex? rest)

/-- The image that pairs of hexadecimal digits spell. -/
def ofHex? (text : String) : Option Image := (bytesOfHex? text.toList).map List.toArray

/-- The byte at `offset`, and zero past the end. -/
def byteAt (image : Image) (offset : Nat) : UInt8 := image.getD offset 0

/-- The `length` bytes at `offset`, when all of them are in the image. -/
def slice? (image : Image) (offset length : Nat) : Option (List UInt8) :=
  if offset + length ≤ image.size then some (image.extract offset (offset + length)).toList
  else none

end Image

/-- The number whose bytes are given, low byte first. -/
def littleEndian (bytes : List UInt8) : Nat :=
  bytes.foldr (fun byte high => wrap32 (high * 0x100 + byte.toNat)) 0

/-- The number whose bytes are given, high byte first. -/
def bigEndian (bytes : List UInt8) : Nat :=
  bytes.foldl (fun high byte => wrap32 (high * 0x100 + byte.toNat)) 0

/-- The order of the bytes of a number. -/
inductive ByteOrder where
  | lowFirst
  | highFirst
deriving DecidableEq

/-- The number in the `length` bytes at `offset`; zero when they are not all in the image. -/
def Image.readWord (image : Image) (offset length : Nat) (order : ByteOrder) : Nat :=
  let bytes := (image.slice? offset length).getD []
  match order with
  | .lowFirst => littleEndian bytes
  | .highFirst => bigEndian bytes

/-- The number in the `length` bytes at an offset that need not be in the image. -/
def Image.fetchWord (image : Image) (offset length : Nat) (order : ByteOrder) : Except Fault Nat :=
  (addWords offset length).map fun _ => image.readWord offset length order

end Disasm65
