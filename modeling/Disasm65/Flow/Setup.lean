/-
What the flow analysis works on.
-/
import Disasm65.AddressMap
import Disasm65.Cpu.Processor
import Disasm65.Image.Attribute
import Disasm65.Parameters

namespace Disasm65.Flow

/-- The image and all that is said about it before the analysis. -/
structure Setup where
  image : Image
  processor : Processor
  map : AddressMap
  parameters : Parameters
  /-- one hint per byte, or none at all -/
  hints : Array Hint
  /-- one override of the status per byte, or none at all -/
  overrides : Array StatusFlags
  /-- the status at entry points -/
  entryStatus : StatusFlags

namespace Setup

def hintAt (setup : Setup) (offset : Nat) : Hint := setup.hints.getD offset .unset

def overrideAt (setup : Setup) (offset : Nat) : StatusFlags :=
  setup.overrides.getD offset .unspecified

/-- The opcode of the byte at `offset`. -/
def opcodeAt (setup : Setup) (offset : Nat) : Opcode :=
  setup.processor.opcode (setup.image.byteAt offset)

/-- The status of a byte once control has also come to it with `incoming`. -/
def arrive (setup : Setup) (offset : Nat) (known incoming : StatusFlags) : StatusFlags :=
  (known.merge incoming).apply (setup.overrideAt offset)

/-- An array of `entries` entries has one per byte; where it is optional it may also be empty. -/
def checkSize (setup : Setup) (what : String) (entries : Nat) (optional : Bool) :
    Except Fault Unit :=
  if entries = setup.image.size ∨ (optional ∧ entries = 0) then .ok ()
  else .error (.sizeMismatch what entries setup.image.size)

/-- The arrays and the address map fit the image. -/
def check (setup : Setup) (attributes : Attributes) : Except Fault Unit := do
  setup.checkSize "attribute array" attributes.size false
  setup.checkSize "address map" setup.map.totalLength false
  setup.checkSize "type hint array" setup.hints.size true
  setup.checkSize "flag override array" setup.overrides.size true

/-- The mark that a hint puts on a byte.  A byte that is no opcode cannot be code. -/
def hintMark? (setup : Setup) (offset : Nat) : Option Mark :=
  match setup.hintAt offset with
  | .unset => none
  | .code => if (setup.opcodeAt offset).isValid then some .instruction else none
  | .data => some .data
  | .inlineData => some .inlineData

/-- Give a byte its address and the marks of its region and its hint. -/
def prepareByte (setup : Setup) (offset : Nat) (a : Attribute) : Attribute :=
  let a := { a with address := (setup.map.addressOf? offset).getD a.address }
  let a := if setup.map.isRegionStart offset then a.mark .regionStart else a
  match setup.hintMark? offset with
  | some m => (a.mark .hinted).mark m
  | none => a

/-- The attributes as they are before any instruction is followed. -/
def prepare (setup : Setup) (attributes : Attributes) : Attributes :=
  attributes.mapIdx setup.prepareByte

end Setup

end Disasm65.Flow
