/-
What an operand refers to.

An absolute operand lies in the bank of the instruction, a relative one is counted from the end of
the instruction and stays in its bank, a long one names its bank itself, and a direct-page or
indirect operand is taken as it stands.
-/
import Disasm65.Flow.Setup

namespace Disasm65.Flow

/-- The signed value of a number of `bits` bits. -/
def signed (bits value : Nat) : Int := (BitVec.ofNat bits value).toInt

/-- The address `displacement` bytes from the end of an instruction of `length` bytes, inside its
bank. -/
def relativeTarget (address length : Nat) (displacement : Int) : Nat :=
  bankOf address + ((((address % 0x10000 + length : Nat) : Int) + displacement) % 0x10000).toNat

/-- The address an operand refers to, for the modes whose operand is an address. -/
def targetAddress? (mode : AddressMode) (address operand : Nat) : Option Nat :=
  match mode with
  | .abs | .absIndexX | .absIndexY | .stackAbs | .absIndexXInd => some (bankOf address + operand)
  | .absInd | .absIndLong | .dp | .dpIndexX | .dpIndexY | .dpIndexXInd | .dpInd | .dpIndLong
  | .dpIndIndexY | .dpIndIndexYLong | .stackDpInd | .absLong | .absIndexXLong => some operand
  | .pcRel => some (relativeTarget address 2 (signed 8 operand))
  | .pcRelLong | .stackPcRelLong => some (relativeTarget address 3 (signed 16 operand))
  | .undefined | .accumulator | .blockMove | .imm | .immAccumulator | .immIndex | .implied
  | .stackInt | .stackPull | .stackPush | .stackRti | .stackRtl | .stackRts | .stackRel
  | .stackRelIndIndexY | .wdm => none

/-- Note in the attribute of the instruction at `offset` what its operand refers to. -/
def resolveOperand (setup : Setup) (offset : Nat) (op : Opcode) (a : Attribute) : Attribute :=
  match op.operand? setup.image offset a.status with
  | none => a
  | some operand =>
    match targetAddress? op.mode a.address operand with
    | none => a
    | some target =>
      let place := setup.map.offsetOf? offset target
      { a with
        operandAddress := some target
        operandOffset := place
        operandIsDirect := place.isSome && op.mode.isDirect }

end Disasm65.Flow
