/-
Hexadecimal numerals: writing them, padded with zeros on the left, and reading digits.
-/

namespace Disasm65

/-- The characters `digits` with zeros in front, so that there are at least `width` of them. -/
def padZeros (width : Nat) (digits : List Char) : List Char :=
  List.replicate (width - digits.length) '0' ++ digits

/-- `n` in lower-case hexadecimal, at least `width` digits. -/
def hex (width n : Nat) : String :=
  String.ofList (padZeros width (Nat.toDigits 16 n))

/-- `n` in upper-case hexadecimal, at least `width` digits. -/
def upperHex (width n : Nat) : String :=
  String.ofList (padZeros width ((Nat.toDigits 16 n).map Char.toUpper))

/-- A file offset as messages and listings show it: a plus sign and six digits. -/
def offsetText (offset : Nat) : String := "+" ++ hex 6 offset

/-- An address or other value as messages show it: a dollar sign and at least `width` digits. -/
def dollarHex (width n : Nat) : String := "$" ++ hex width n

/-- The value of a hexadecimal digit. -/
def hexDigit? (c : Char) : Option Nat :=
  if c.isDigit then some (c.toNat - '0'.toNat)
  else if 'a' ≤ c && c ≤ 'f' then some (c.toNat - 'a'.toNat + 10)
  else if 'A' ≤ c && c ≤ 'F' then some (c.toNat - 'A'.toNat + 10)
  else none

/-- The value of hexadecimal digits, highest first. -/
def hexValue? (cs : List Char) : Option Nat :=
  cs.foldlM (fun value c => (hexDigit? c).map (16 * value + ·)) 0

end Disasm65
