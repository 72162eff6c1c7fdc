/-
What can go wrong, and how it is said.

A fault is a cause with the values that explain it.  `Fault.kind` sorts the causes into the few
classes a caller tells apart and `Fault.message` is the one place that words them.
-/
import Disasm65.Text.Hex
import Disasm65.Format.Kind

namespace Disasm65

/-- Why a kind, a detail and a length do not make a format. -/
inductive FormatFlaw where
  | zeroLength
  | alignmentOutsideJunk
  | symbolWithoutReference
  | notSingleByte
  | numberTooLong
  | ignoredNumber
  | detailOnDense
  | detailOnFill
  | detailOnJunk
  | missingEncoding
deriving DecidableEq

def FormatFlaw.text : FormatFlaw → String
  | .zeroLength => "zero length"
  | .alignmentOutsideJunk => "alignment sub-type on non-junk item"
  | .symbolWithoutReference => "symbol sub-type requires a symbol reference"
  | .notSingleByte => "default items are single unformatted bytes"
  | .numberTooLong => "numeric item too long"
  | .ignoredNumber => "numeric items cannot be ignored"
  | .detailOnDense => "dense items take no sub-type"
  | .detailOnFill => "fill items take no sub-type"
  | .detailOnJunk => "junk items take only alignment sub-types"
  | .missingEncoding => "string items need a character encoding"

/-- The classes of faults. -/
inductive FaultKind where
  | invalidInput
  | invalidAddressMap
  | invalidFormat
  | duplicateLabel
  | labelsExhausted
  | unreadableFile
  | malformedText
  | overflow
  | internal
deriving DecidableEq

def FaultKind.name : FaultKind → String
  | .invalidInput => "InvalidInput"
  | .invalidAddressMap => "InvalidAddressMap"
  | .invalidFormat => "InvalidDescriptor"
  | .duplicateLabel => "DuplicateLabel"
  | .labelsExhausted => "LabelExhausted"
  | .unreadableFile => "Io"
  | .malformedText => "Serialization"
  | .overflow => "Overflow"
  | .internal => "Internal"

/-- The causes of faults. -/
inductive Fault where
  /-- `text` names no value of the set of names called `what` -/
  | unknownName (what text : String)
  | undefinedStatusBits (value : Nat)
  /-- a per-byte array, or the address map, has the wrong number of entries -/
  | sizeMismatch (what : String) (entries imageSize : Nat)
  | workspaceMismatch (attributes mapped imageSize : Nat)
  | invalidLabel (label : String)
  | compareOutsideMask (value mask : Nat)
  | masksOverlap (compareMask addressMask : Nat)
  | noDirection (label : String)
  | noRegions
  | emptyRegion (offset : Nat)
  | misplacedRegion (offset expected : Nat)
  | regionTooHigh (offset : Nat)
  | regionsMissImage (covered imageSize : Nat)
  | mapMissesImage (covered imageSize : Nat)
  | badFormat (flaw : FormatFlaw) (length : Nat) (kind : FormatKind) (detail : FormatDetail)
  | referenceLength (length : Nat)
  | referenceWithoutLabel
  | symbolWidth (width : Nat)
  | symbolDetail (detail : FormatDetail)
  | duplicateLabel (label : String)
  | labelsExhausted (base : String)
  | unreadableFile
  | malformedText
  /-- the sum of the two is not a word -/
  | overflow (a b : Nat)
  /-- a walk over the image has not come to its end -/
  | outOfSteps
deriving DecidableEq

namespace Fault

/-- The class of a fault. -/
def kind : Fault → FaultKind
  | .unknownName .. | .undefinedStatusBits .. | .sizeMismatch .. | .workspaceMismatch ..
  | .invalidLabel .. | .compareOutsideMask .. | .masksOverlap .. | .noDirection .. => .invalidInput
  | .noRegions | .emptyRegion .. | .misplacedRegion .. | .regionTooHigh .. | .regionsMissImage ..
  | .mapMissesImage .. => .invalidAddressMap
  | .badFormat .. | .referenceLength .. | .referenceWithoutLabel | .symbolWidth ..
  | .symbolDetail .. => .invalidFormat
  | .duplicateLabel .. => .duplicateLabel
  | .labelsExhausted .. => .labelsExhausted
  | .unreadableFile => .unreadableFile
  | .malformedText => .malformedText
  | .overflow .. => .overflow
  | .outOfSteps => .internal

/-- The part of the message that is about this cause. -/
def detail : Fault → String
  | .unknownName what text => "unknown " ++ what ++ " '" ++ text ++ "'"
  | .undefinedStatusBits value => "status flags value 0x" ++ hex 8 value ++ " has undefined bits"
  | .sizeMismatch what entries imageSize =>
    what ++ " has " ++ Nat.repr entries ++ " entries, image is " ++ Nat.repr imageSize ++ " bytes"
  | .workspaceMismatch attributes mapped imageSize =>
    "attribute array (" ++ Nat.repr attributes ++ ") and address map (" ++ Nat.repr mapped
      ++ ") must match the image (" ++ Nat.repr imageSize ++ ")"
  | .invalidLabel label => "invalid label '" ++ label ++ "'"
  | .compareOutsideMask value mask =>
    "compare value " ++ dollarHex 1 value ++ " has bits outside mask " ++ dollarHex 1 mask
  | .masksOverlap compareMask addressMask =>
    "compare mask " ++ dollarHex 1 compareMask ++ " overlaps address mask "
      ++ dollarHex 1 addressMask
  | .noDirection label => "symbol '" ++ label ++ "' has no I/O direction"
  | .noRegions => "no regions defined"
  | .emptyRegion offset => "empty region at " ++ offsetText offset
  | .misplacedRegion offset expected =>
    "region at " ++ offsetText offset ++ " should start at " ++ offsetText expected
  | .regionTooHigh offset =>
    "region at " ++ offsetText offset ++ " runs past the end of the 24-bit address space"
  | .regionsMissImage covered imageSize =>
    "regions cover " ++ Nat.repr covered ++ " bytes, image is " ++ Nat.repr imageSize
  | .mapMissesImage covered imageSize =>
    "map covers " ++ Nat.repr covered ++ " bytes, image is " ++ Nat.repr imageSize
  | .badFormat flaw length kind detail =>
    flaw.text ++ " (len=" ++ Nat.repr length ++ " type=" ++ kind.name ++ " sub=" ++ detail.name
      ++ ")"
  | .referenceLength length => "bad length " ++ Nat.repr length ++ " for symbol reference"
  | .referenceWithoutLabel => "symbol reference without a label"
  | .symbolWidth width => "symbol width " ++ Nat.repr width ++ " out of range"
  | .symbolDetail detail => "sub-type " ++ detail.name ++ " not usable for a symbol definition"
  | .duplicateLabel label => label
  | .labelsExhausted base => base
  | .unreadableFile => ""
  | .malformedText => ""
  | .overflow a b => Nat.repr a ++ " + " ++ Nat.repr b
  | .outOfSteps => "walk without end"

/-- What every message of a class starts with. -/
def heading : FaultKind → String
  | .invalidInput => "Invalid input: "
  | .invalidAddressMap => "Invalid address map: "
  | .invalidFormat => "Invalid format descriptor: "
  | .duplicateLabel => "Duplicate label: "
  | .labelsExhausted => "Too many identical symbols for "
  | .unreadableFile => "I/O error: "
  | .malformedText => "Serialization error: "
  | .overflow => "Sum out of range: "
  | .internal => "Internal error: "

/-- The whole message. -/
def message (fault : Fault) : String := heading fault.kind ++ fault.detail

end Fault

/-- The value of the list `all` that is called `text`; `what` says what kind of name it is. -/
def byName (what : String) (all : List α) (name : α → String) (text : String) : Except Fault α :=
  match all.find? fun value => name value == text with
  | some value => .ok value
  | none => .error (.unknownName what text)

/-- The kind of format with the given name. -/
def FormatKind.ofName (text : String) : Except Fault FormatKind :=
  byName "FormatType" all name text

/-- The format detail with the given name. -/
def FormatDetail.ofName (text : String) : Except Fault FormatDetail :=
  byName "FormatSubType" all name text

/-! ### Steps that may fail -/

theorem map_eq_ok {α β : Type} {x : Except Fault α} {f : α → β} {b : β} :
    x.map f = .ok b ↔ ∃ a, x = .ok a ∧ f a = b := by
  cases x <;> simp [Except.map]

theorem bind_eq_ok {α β : Type} {x : Except Fault α} {f : α → Except Fault β} {b : β} :
    x.bind f = .ok b ↔ ∃ a, x = .ok a ∧ f a = .ok b := by
  cases x <;> simp [Except.bind]

end Disasm65
