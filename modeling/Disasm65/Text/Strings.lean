/-
String layouts: recognising and verifying them.

A recogniser looks at a whole run of bytes and either accounts for every byte or gives up.  It
counts the strings that are not empty.  A verifier looks at the bytes of one string and checks its
framing; it does not look at the character encoding.
-/
import Disasm65.Format.Kind
import Disasm65.Image.Bytes
import Disasm65.Text.Charset

namespace Disasm65

/-- The high bit of a byte. -/
def highBit (b : UInt8) : Bool := 0x80 ≤ b

/-- The length of the run of equal bytes at the front. -/
def runLength : List UInt8 → Nat
  | [] => 0
  | first :: rest => 1 + (rest.takeWhile (· == first)).length

/-- Numbers of bytes by class and high bit. -/
structure ByteCounts where
  low : Nat
  high : Nat
  other : Nat
deriving DecidableEq

/-- Count the characters without and with the high bit, and the other bytes. -/
def countBytes (accepts : UInt8 → Bool) (bytes : List UInt8) : ByteCounts where
  low := bytes.countP fun b => accepts b && !highBit b
  high := bytes.countP fun b => accepts b && highBit b
  other := bytes.countP fun b => !accepts b

/-- Count the characters. -/
def countCharacters (accepts : UInt8 → Bool) (bytes : List UInt8) : Nat := bytes.countP accepts

/-- A search for a byte among others.  All that is known of it is that it gives the places of the
byte, the first one first. -/
structure ByteSearch where
  places : UInt8 → List UInt8 → List Nat
  ordered : ∀ b bytes, (places b bytes).Pairwise (· < ·)
  mem_places : ∀ b bytes i, i ∈ places b bytes ↔ bytes[i]? = some b

/-- The search that looks at one byte after the other. -/
def ByteSearch.scan : ByteSearch where
  places b bytes :=
    let image := bytes.toArray
    (List.range bytes.length).filter fun i => image[i]? == some b
  ordered _ _ := List.pairwise_lt_range.filter _
  mem_places b bytes i := by
    simp only [List.getElem?_toArray, List.mem_filter, List.mem_range, beq_iff_eq,
      and_iff_right_iff_imp]
    exact fun h => (List.getElem?_eq_some_iff.mp h).1

namespace Strings

/-- A string body: every byte is a character and, where the high bit matters, all bytes have that
of the first. -/
def isBody (accepts : UInt8 → Bool) (oneHighBit : Bool) (body : List UInt8) : Bool :=
  match body with
  | [] => true
  | first :: _ => body.all fun b => accepts b && (!oneHighBit || highBit b == highBit first)

/-- One more string, unless it is empty. -/
def countBody (body : List UInt8) (count : Nat) : Nat :=
  if body.isEmpty then count else count + 1

/-- Count strings that end at a zero byte each.  `stops` are the zero bytes at and behind `start`,
where the next string starts. -/
def nullTerminatedFrom (accepts : UInt8 → Bool) (oneHighBit : Bool) (bytes : List UInt8) :
    (start count : Nat) → (stops : List Nat) → Option Nat
  | _, count, [] => some count
  | start, count, stop :: stops =>
    let body := (bytes.drop start).take (stop - start)
    if isBody accepts oneHighBit body then
      nullTerminatedFrom accepts oneHighBit bytes (stop + 1) (countBody body count) stops
    else none

/-- Count strings that end at a zero byte each and fill the bytes, of which there must be some. -/
def nullTerminated? (search : ByteSearch) (accepts : UInt8 → Bool) (oneHighBit : Bool)
    (bytes : List UInt8) : Option Nat :=
  if bytes.getLast? = some 0 then
    nullTerminatedFrom accepts oneHighBit bytes 0 0 (search.places 0 bytes)
  else none

/-- The length in front of a string and the bytes after it; the number of bytes that hold the
length is `headerSize`. -/
def splitHeader (headerSize : Nat) (bytes : List UInt8) : Option (Nat × List UInt8) :=
  if headerSize ≤ bytes.length then
    some (littleEndian (bytes.take headerSize), bytes.drop headerSize)
  else none

/-- Count strings that come after their length and fill the bytes.  Every string has a header of
at least one byte, so `fuel` steps suffice for as many bytes. -/
def countedFrom (accepts : UInt8 → Bool) (oneHighBit : Bool) (headerSize : Nat) :
    (fuel : Nat) → (count : Nat) → List UInt8 → Option Nat
  | _, count, [] => some count
  | 0, _, _ :: _ => none
  | fuel + 1, count, bytes@(_ :: _) =>
    match splitHeader headerSize bytes with
    | none => none
    | some (length, rest) =>
      let body := rest.take length
      if length ≤ rest.length && isBody accepts oneHighBit body then
        countedFrom accepts oneHighBit headerSize fuel (countBody body count) (rest.drop length)
      else none

/-- Count strings with a length of one byte. -/
def length8? (accepts : UInt8 → Bool) (oneHighBit : Bool) (bytes : List UInt8) : Option Nat :=
  countedFrom accepts oneHighBit 1 bytes.length 0 bytes

/-- Count strings with a length of two bytes, low byte first. -/
def length16? (accepts : UInt8 → Bool) (oneHighBit : Bool) (bytes : List UInt8) : Option Nat :=
  countedFrom accepts oneHighBit 2 bytes.length 0 bytes

end Strings

/-- Why bytes are not a string of some layout. -/
inductive StringFlaw where
  | outOfRange
  | nullInside
  | nullMissing
  | length8Differs
  | length16Differs
  | dciTooShort
  | dciMixed
  | dciNotTerminated
  | notString (kind : FormatKind)
deriving DecidableEq

namespace StringFlaw

def name : StringFlaw → String
  | .outOfRange => "OutOfRange"
  | .nullInside => "NullInsideNullTerm"
  | .nullMissing => "MissingNullTerm"
  | .length8Differs => "L8LengthMismatch"
  | .length16Differs => "L16LengthMismatch"
  | .dciTooShort => "DciTooShort"
  | .dciMixed => "DciMixedData"
  | .dciNotTerminated => "DciNotTerminated"
  | .notString _ => "NotString"

def message : StringFlaw → String
  | .outOfRange => "string runs past the end of the data"
  | .nullInside => "null byte found inside null-terminated string"
  | .nullMissing => "null-terminated string has no null byte"
  | .length8Differs => "leading 8-bit length does not match string length"
  | .length16Differs => "leading 16-bit length does not match string length"
  | .dciTooShort => "DCI string must be at least two bytes"
  | .dciMixed => "DCI string has mixed high-bit values"
  | .dciNotTerminated => "DCI string is not terminated"
  | .notString kind => kind.name ++ " is not a string type"

end StringFlaw

namespace Strings

/-- What is wrong with the bytes of one string of the given kind. -/
def flaw? (kind : FormatKind) (bytes : List UInt8) : Option StringFlaw :=
  match kind with
  | .text | .reversedText => none
  | .nullTerminated =>
    match bytes.findIdx? (· == 0) with
    | some position => if position + 1 = bytes.length then none else some .nullInside
    | none => some .nullMissing
  | .length8 =>
    match splitHeader 1 bytes with
    | some (length, body) => if length = body.length then none else some .length8Differs
    | none => some .length8Differs
  | .length16 =>
    match splitHeader 2 bytes with
    | some (length, body) => if length = body.length then none else some .length16Differs
    | none => some .length16Differs
  | .dci =>
    match bytes with
    | first :: second :: rest =>
      let body := (second :: rest).dropLast
      let last := (second :: rest).getLast (by simp)
      if body.any fun b => highBit b != highBit first then some .dciMixed
      else if highBit last == highBit first then some .dciNotTerminated
      else none
    | _ => some .dciTooShort
  | .unformatted | .littleEndian | .bigEndian | .dense | .fill | .junk => some (.notString kind)

end Strings

namespace Image

/-- What is wrong with the string of `length` bytes at `offset`. -/
def stringFlaw? (image : Image) (offset length : Nat) (kind : FormatKind) : Option StringFlaw :=
  match image.slice? offset length with
  | none => some .outOfRange
  | some bytes => Strings.flaw? kind bytes

/-- The `length` bytes at `offset` are in the image, and all of one value. -/
def isFill (image : Image) (offset length : Nat) : Bool :=
  match image.slice? offset length with
  | none => false
  | some bytes => length != 0 && runLength bytes == length

/-- What is wrong with a string at an offset that need not be in the image. -/
def verifyString (image : Image) (offset length : Nat) (kind : FormatKind) :
    Except Fault (Option StringFlaw) :=
  (addWords offset length).map fun _ => image.stringFlaw? offset length kind

/-- Ask whether the `length` bytes at any offset are in the image, and all of one value. -/
def verifyFill (image : Image) (offset length : Nat) : Except Fault Bool :=
  (addWords offset length).map fun _ => image.isFill offset length

end Image

end Disasm65
