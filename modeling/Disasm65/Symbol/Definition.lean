/-
Definitions: symbols that come from outside the image.

A definition has a width, a way to be shown, a direction of access and, for registers that repeat
through the address space, a mask.  `Entry` is what a symbol table holds: a plain label or a
definition.
-/
import Disasm65.Format.Basic
import Disasm65.Symbol.Basic
import Disasm65.Word

namespace Disasm65

/-- A direction of access: a set of bits, of which two have a meaning. -/
structure Access where
  bits : BitVec 8
deriving DecidableEq

namespace Access

def read : Access := ⟨0x02#8⟩

def write : Access := ⟨0x04#8⟩

def readWrite : Access := ⟨0x06#8⟩

/-- The direction bits of a number; other bits are dropped. -/
def ofNat (n : Nat) : Access := ⟨BitVec.ofNat 8 n &&& 0x06#8⟩

def isEmpty (access : Access) : Bool := access.bits == 0#8

def reads (access : Access) : Bool := access.bits.getLsbD 1

def writes (access : Access) : Bool := access.bits.getLsbD 2

/-- The directions, for listings. -/
def text (access : Access) : String :=
  let names := (if access.reads then ["READ"] else []) ++ (if access.writes then ["WRITE"] else [])
  let rest := access.bits &&& ~~~ 0x06#8
  let parts :=
    if rest = 0#8 then (if names.isEmpty then ["0x0"] else names)
    else names ++ ["0x" ++ hex 1 rest.toNat]
  "DirectionFlags(" ++ " | ".intercalate parts ++ ")"

end Access

/-- The mask of a register that appears at many addresses.  An address belongs to the register's
range when its bits under `compareMask` are `compareValue`; the bits under `addressMask` then tell
which register it is. -/
structure RepeatMask where
  compareMask : Nat
  compareValue : Nat
  addressMask : Nat
deriving DecidableEq

namespace RepeatMask

/-- A mask whose compared value lies under its compare mask and whose two masks are disjoint. -/
def create (compareMask compareValue addressMask : Nat) : Except Fault RepeatMask :=
  if compareValue &&& compareMask ≠ compareValue then
    .error (.compareOutsideMask compareValue compareMask)
  else if compareMask &&& addressMask ≠ 0 then .error (.masksOverlap compareMask addressMask)
  else .ok ⟨compareMask, compareValue, addressMask⟩

/-- The address belongs to the range. -/
def admits (mask : RepeatMask) (address : Nat) : Bool :=
  address &&& mask.compareMask == mask.compareValue

/-- The mask and the compared value, for listings. -/
def text (mask : RepeatMask) : String :=
  "cmp=" ++ dollarHex 1 mask.compareMask ++ "/" ++ dollarHex 1 mask.compareValue ++ " addr="
    ++ dollarHex 1 mask.addressMask

end RepeatMask

/-- A symbol defined outside the image. -/
structure Definition where
  symbol : Symbol
  format : Format
  /-- a width was given -/
  hasWidth : Bool
  comment : String
  tag : String
  access : Access
  mask : Option RepeatMask
  /-- the place of the defining file in the order of loading -/
  loadOrdinal : Int
  /-- the name of the defining file -/
  file : String
deriving DecidableEq

namespace Definition

/-- A definition of one byte, shown in hexadecimal, to be read and written. -/
def ofSymbol (symbol : Symbol) : Definition :=
  ⟨symbol, ⟨1, .littleEndian, .hex, none⟩, false, "", "", .readWrite, none, 0, ""⟩

/-- The number of values the definition covers. -/
def width (definition : Definition) : Nat := definition.format.length

/-- Give a width.  Constants have none. -/
def withWidth (definition : Definition) (width : Nat) : Except Fault Definition :=
  if definition.symbol.isConstant then .ok definition
  else
    match Format.ofWidth width definition.format.detail with
    | .ok format => .ok { definition with format := format, hasWidth := true }
    | .error fault => .error fault

/-- Choose how the value is shown. -/
def withDetail (definition : Definition) (detail : FormatDetail) : Except Fault Definition :=
  match Format.ofWidth definition.width detail with
  | .ok format => .ok { definition with format := format }
  | .error fault => .error fault

def withComment (definition : Definition) (comment : String) : Definition :=
  { definition with comment := comment }

def withTag (definition : Definition) (tag : String) : Definition :=
  { definition with tag := tag }

/-- Set the direction of access, of which there must be one. -/
def withAccess (definition : Definition) (access : Access) : Except Fault Definition :=
  if access.isEmpty then .error (.noDirection definition.symbol.label)
  else .ok { definition with access := access }

/-- Attach a mask.  Constants have none. -/
def withMask (definition : Definition) (mask : RepeatMask) : Definition :=
  if definition.symbol.isConstant then definition else { definition with mask := some mask }

/-- Say which file the definition comes from. -/
def withFile (definition : Definition) (loadOrdinal : Int) (file : String) : Definition :=
  { definition with loadOrdinal := loadOrdinal, file := file }

/-- Ask whether the definition and the `width` values from `value` on have a value in common, and
their kinds agree. -/
def overlaps (definition : Definition) (value width : Nat) (kind : SymbolKind) :
    Except Fault Bool := do
  if width = 0 ∨ definition.symbol.kind ≠ kind then return false
  let stop ← addWords definition.symbol.value definition.width
  let other ← addWords value width
  return max definition.symbol.value value < min stop other

/-- The parts of a definition, for listings. -/
def text (definition : Definition) : String :=
  definition.symbol.text ++ " width=" ++ Nat.repr definition.width ++ " "
    ++ definition.access.text
    ++ (match definition.mask with
        | some mask => " " ++ mask.text
        | none => "")

end Definition

/-- What a symbol table holds. -/
inductive Entry where
  | label (symbol : Symbol)
  | defined (definition : Definition)
deriving DecidableEq

namespace Entry

def symbol : Entry → Symbol
  | .label symbol => symbol
  | .defined definition => definition.symbol

def definition? : Entry → Option Definition
  | .label _ => none
  | .defined definition => some definition

/-- The number of addresses the entry covers. -/
def width : Entry → Nat
  | .label _ => 1
  | .defined definition => definition.width

def access : Entry → Access
  | .label _ => .readWrite
  | .defined definition => definition.access

def loadOrdinal : Entry → Int
  | .label _ => 0
  | .defined definition => definition.loadOrdinal

def mask : Entry → Option RepeatMask
  | .label _ => none
  | .defined definition => definition.mask

def name (entry : Entry) : String := entry.symbol.label

def value (entry : Entry) : Nat := entry.symbol.value

def origin (entry : Entry) : Origin := entry.symbol.origin

/-- The entry stands for addresses: it is neither a variable nor a constant. -/
def isAddressable (entry : Entry) : Bool :=
  entry.origin != .variable && !entry.symbol.isConstant

/-- The parts of an entry, for listings. -/
def text : Entry → String
  | .label symbol => symbol.text
  | .defined definition => definition.text

/-- How far `address` lies above the entry's value, inside a bank. -/
def distance (entry : Entry) (address : Nat) : Nat :=
  (address + 0x100000000 - entry.value) % 0x10000

/-- The order in which entries are preferred at `address`: the more trusted origin, among platform
files the later one, then the nearer value, then the label. -/
def precedence (address : Nat) (a b : Entry) : Ordering :=
  (compare a.origin.rank b.origin.rank).then <|
    (if a.origin = .platform then compare b.loadOrdinal a.loadOrdinal else .eq).then <|
      (compare (a.distance address) (b.distance address)).then (compare a.name b.name)

/-- The addresses the entry covers, which wrap around inside its bank. -/
def covered (entry : Entry) : List Nat :=
  (List.range (min entry.width 0x10000)).map fun i =>
    entry.value / 0x10000 * 0x10000 + (entry.value + i) % 0x10000

/-- The entry covers `address`. -/
def covers (entry : Entry) (address : Nat) : Bool :=
  address / 0x10000 == entry.value / 0x10000
    && (address + 0x10000 - entry.value % 0x10000) % 0x10000 < min entry.width 0x10000

end Entry

end Disasm65
