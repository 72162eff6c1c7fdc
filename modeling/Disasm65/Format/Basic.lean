/-
Formats: how the bytes of one item are shown.

A format says how many bytes the item has, what kind of thing it is, and, when it stands for a
label, which one.  Only some combinations make sense; `Format.create`, `Format.reference` and
`Format.ofWidth` are the ways to build one and refuse the rest.
-/
import Disasm65.Fault

namespace Disasm65

/-- The part of a label's value that is meant. -/
inductive LabelPart where
  | low
  | high
  | bank
deriving DecidableEq

namespace LabelPart

/-- Every part. -/
def all : List LabelPart := [.low, .high, .bank]

def name : LabelPart → String
  | .low => "Low"
  | .high => "High"
  | .bank => "Bank"

/-- The part with the given name. -/
def ofName? (text : String) : Option LabelPart := all.find? (·.name == text)

end LabelPart

/-- A reference to a symbol by its label.  The label need not exist. -/
structure LabelRef where
  label : String
  part : LabelPart
deriving DecidableEq

def LabelRef.text (ref : LabelRef) : String := ref.label ++ ":" ++ ref.part.name

/-- How the bytes of one item are shown. -/
structure Format where
  length : Nat
  kind : FormatKind
  detail : FormatDetail
  label : Option LabelRef
deriving DecidableEq

namespace Format

/-- The most bytes a number has. -/
def maxNumberLength : Nat := 4

/-- The most bytes a symbol can stand for. -/
def maxSymbolWidth : Nat := 0x10000

/-- What is wrong with a combination of length, kind and detail. -/
def flaw? (length : Nat) (kind : FormatKind) (detail : FormatDetail) : Option FormatFlaw :=
  if length = 0 then some .zeroLength
  else if detail.isAlignment && kind != .junk then some .alignmentOutsideJunk
  else if detail = .symbol then some .symbolWithoutReference
  else
    match kind with
    | .unformatted => if length ≠ 1 ∨ detail ≠ .plain then some .notSingleByte else none
    | .littleEndian | .bigEndian =>
      if maxNumberLength < length then some .numberTooLong
      else if detail = .ignore then some .ignoredNumber
      else none
    | .dense => if detail ≠ .plain then some .detailOnDense else none
    | .fill => if detail ≠ .plain ∧ detail ≠ .ignore then some .detailOnFill else none
    | .junk => if detail ≠ .plain ∧ detail.isAlignment = false then some .detailOnJunk else none
    | .text | .reversedText | .nullTerminated | .length8 | .length16 | .dci =>
      if detail.isCharacter then none else some .missingEncoding

/-- A format that refers to no label. -/
def create (length : Nat) (kind : FormatKind) (detail : FormatDetail) : Except Fault Format :=
  match flaw? length kind detail with
  | some flaw => .error (.badFormat flaw length kind detail)
  | none => .ok ⟨length, kind, detail, none⟩

/-- A number that stands for a label. -/
def reference (length : Nat) (ref : LabelRef) (bigEndian : Bool) : Except Fault Format :=
  if length = 0 ∨ maxNumberLength < length then .error (.referenceLength length)
  else if ref.label = "" then .error .referenceWithoutLabel
  else .ok ⟨length, if bigEndian then .bigEndian else .littleEndian, .symbol, some ref⟩

/-- Details a symbol definition may be shown with. -/
def isSymbolDetail : FormatDetail → Bool
  | .plain | .hex | .decimal | .binary | .ascii | .highAscii | .petscii | .screenCode
  | .address => true
  | .anyAscii | .symbol | .ignore | .align _ => false

/-- The width and detail of a symbol definition.  A definition can be wider than a number: it may
stand for a table. -/
def ofWidth (width : Nat) (detail : FormatDetail) : Except Fault Format :=
  if width = 0 ∨ maxSymbolWidth < width then .error (.symbolWidth width)
  else if isSymbolDetail detail then .ok ⟨width, .littleEndian, detail, none⟩
  else .error (.symbolDetail detail)

/-- One byte about which nothing is said. -/
def oneByte : Format := ⟨1, .unformatted, .plain, none⟩

/-- One byte shown as a number. -/
def oneByteNumber : Format := ⟨1, .littleEndian, .plain, none⟩

def isNumeric (format : Format) : Bool := format.kind.isNumeric

def isString (format : Format) : Bool := format.kind.isString

def isCharacter (format : Format) : Bool := format.detail.isCharacter

def hasLabel (format : Format) : Bool := format.label.isSome

def hasLabelOrAddress (format : Format) : Bool := format.hasLabel || format.detail == .address

/-- An instruction's operand can only be shown as it stands or as a number, low byte first. -/
def fitsInstruction (format : Format) : Bool :=
  format.kind == .unformatted || format.kind == .littleEndian

/-- The base numbers are shown in. -/
def base (format : Format) : Nat :=
  match format.detail with
  | .decimal => 10
  | .binary => 2
  | _ => 16

/-- The name of a string's character set. -/
def charsetCaption : FormatDetail → String
  | .ascii => "ASCII"
  | .highAscii => "ASCII (high)"
  | .petscii => "C64 PETSCII"
  | .screenCode => "C64 Screen"
  | _ => "???"

/-- The name of a string's framing. -/
def framingCaption : FormatKind → String
  | .text => "string"
  | .reversedText => "string (reverse)"
  | .nullTerminated => "string (null term)"
  | .length8 => "string (1-byte len)"
  | .length16 => "string (2-byte len)"
  | .dci => "string (DCI)"
  | _ => "???"

/-- The name of a kind on which nothing more is said. -/
def plainCaption : FormatKind → String
  | .unformatted | .littleEndian => "Numeric (little-endian)"
  | .bigEndian => "Numeric (big-endian)"
  | .dense => "Dense"
  | .fill => "Fill"
  | _ => "???"

/-- A short description for people. -/
def caption (format : Format) : String :=
  if format.isString then charsetCaption format.detail ++ " " ++ framingCaption format.kind
  else if format.kind = .junk then
    match format.detail.alignment? with
    | some bytes => "Alignment to " ++ Nat.repr bytes ++ " bytes"
    | none => "Junk"
  else
    match format.detail with
    | .plain => plainCaption format.kind
    | .hex => "Numeric, Hex"
    | .decimal => "Numeric, Decimal"
    | .binary => "Numeric, Binary"
    | .address => "Address"
    | .symbol =>
      match format.label with
      | some ref => "Symbol \"" ++ ref.label ++ "\""
      | none => "Symbol"
    | .ascii => "Numeric, ASCII"
    | .highAscii => "Numeric, ASCII (high)"
    | .petscii => "Numeric, C64 PETSCII"
    | .screenCode => "Numeric, C64 Screen"
    | .ignore => "Fill (ignored)"
    | .anyAscii | .align _ => "???"

/-- The parts of a format, for listings. -/
def text (format : Format) : String :=
  "[FmtDesc: len=" ++ Nat.repr format.length ++ " fmt=" ++ format.kind.name ++ " sub="
    ++ format.detail.name
    ++ (match format.label with
        | some ref => " sym=" ++ ref.text
        | none => "")
    ++ "]"

end Format

end Disasm65
