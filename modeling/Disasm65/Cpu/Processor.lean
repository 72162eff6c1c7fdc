/-
Processors: a family, and a table with one opcode for every byte value.
-/
import Disasm65.Cpu.Layer

namespace Disasm65

/-- Families of processors with distinct instruction sets. -/
inductive Family where
  | nmos6502
  | cmos65C02
  | wide65816
deriving DecidableEq

namespace Family

/-- Every family. -/
def all : List Family := [.nmos6502, .cmos65C02, .wide65816]

def name : Family → String
  | .nmos6502 => "6502"
  | .cmos65C02 => "65C02"
  | .wide65816 => "65816"

/-- The family of a part number, whatever the case of its letters. -/
def ofPart? (part : String) : Option Family :=
  let part := part.map Char.toUpper
  if ["6502", "6502B", "6502C", "6507", "6510", "8502", "2A03"].contains part then
    some .nmos6502
  else if ["65C02", "65SC02"].contains part then some .cmos65C02
  else if ["65802", "65816", "5A22"].contains part then some .wide65816
  else none

/-- The family of a part number, or a fault that names the part. -/
def ofName (part : String) : Except Fault Family :=
  match ofPart? part with
  | some family => .ok family
  | none => .error (.unknownName "CPU" part)

/-- The part that stands for the family. -/
def partName : Family → String
  | .nmos6502 => "MOS 6502"
  | .cmos65C02 => "WDC W65C02S"
  | .wide65816 => "WDC W65C816S"

/-- The highest address. -/
def maxAddress : Family → Nat
  | .nmos6502 | .cmos65C02 => 0xffff
  | .wide65816 => 0xffffff

/-- The family has an emulation flag. -/
def hasEmulation : Family → Bool
  | .nmos6502 | .cmos65C02 => false
  | .wide65816 => true

/-- Addresses fit in sixteen bits. -/
def hasShortAddresses (family : Family) : Bool := family.maxAddress ≤ 0xffff

/-- The layers of the family's instruction set, bottom first. -/
def layers : Family → List (List Opcode)
  | .nmos6502 => [Layer.nmos, Layer.nmosUndocumented]
  | .cmos65C02 => [Layer.nmos, Layer.cmos, Layer.cmosUndocumented]
  | .wide65816 => [Layer.nmos, Layer.cmos, Layer.wide]

end Family

/-- One opcode for every byte value. -/
abbrev OpcodeTable := Vector Opcode 256

namespace OpcodeTable

/-- The table that defines nothing. -/
def blank : OpcodeTable := Vector.ofFn fun code => Opcode.invalid (UInt8.ofNat code.val)

/-- The table with the opcodes of a layer in their places. -/
def overlay (table : OpcodeTable) (layer : List Opcode) : OpcodeTable :=
  layer.foldl (fun table op => table.setIfInBounds op.code.toNat op) table

/-- The table with nothing but documented opcodes. -/
def documented (table : OpcodeTable) : OpcodeTable :=
  table.map fun op => if op.undocumented then Opcode.invalid op.code else op

/-- The full table of a family. -/
def ofFamily (family : Family) : OpcodeTable := family.layers.foldl overlay blank

end OpcodeTable

/-- A processor: its family and the opcodes it is taken to have. -/
structure Processor where
  family : Family
  hasUndocumented : Bool
  table : OpcodeTable

namespace Processor

/-- The processor of a family, with or without the undocumented opcodes. -/
def ofFamily (family : Family) (hasUndocumented : Bool) : Processor :=
  let table := OpcodeTable.ofFamily family
  ⟨family, hasUndocumented, if hasUndocumented then table else table.documented⟩

/-- The opcode of a byte. -/
def opcode (processor : Processor) (code : UInt8) : Opcode := processor.table.get code.toFin

/-- The opcodes of the byte values from `start` on that lie below `stop`. -/
def opcodesBetween (processor : Processor) (start stop : Nat) : List Opcode :=
  (processor.table.toList.take stop).drop start

/-- The part and the family. -/
def text (processor : Processor) : String :=
  processor.family.partName ++ " (" ++ processor.family.name
    ++ (if processor.hasUndocumented then ", undoc" else "") ++ ")"

end Processor

end Disasm65
