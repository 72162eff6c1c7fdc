/-
Addressing modes: where an instruction finds its operand, and so how long it is.

The length counts the opcode.  Two modes take an immediate operand whose width follows the status:
`immAccumulator` the width of the accumulator, `immIndex` the width of the index registers.
-/
import Disasm65.Status.Flags

namespace Disasm65

inductive AddressMode where
  /-- the mode of an opcode that is not defined -/
  | undefined
  | abs
  | absInd
  | absIndLong
  | absIndexX
  | absIndexXInd
  | absIndexXLong
  | absIndexY
  | absLong
  | accumulator
  | blockMove
  | dp
  | dpInd
  | dpIndIndexY
  | dpIndIndexYLong
  | dpIndLong
  | dpIndexX
  | dpIndexXInd
  | dpIndexY
  | imm
  /-- immediate, as wide as the accumulator -/
  | immAccumulator
  /-- immediate, as wide as the index registers -/
  | immIndex
  | implied
  | pcRel
  | pcRelLong
  | stackAbs
  | stackDpInd
  | stackInt
  | stackPcRelLong
  | stackPull
  | stackPush
  | stackRti
  | stackRtl
  | stackRts
  | stackRel
  | stackRelIndIndexY
  | wdm
deriving DecidableEq

namespace AddressMode

def name : AddressMode → String
  | .undefined => "Unknown"
  | .abs => "Abs"
  | .absInd => "AbsInd"
  | .absIndLong => "AbsIndLong"
  | .absIndexX => "AbsIndexX"
  | .absIndexXInd => "AbsIndexXInd"
  | .absIndexXLong => "AbsIndexXLong"
  | .absIndexY => "AbsIndexY"
  | .absLong => "AbsLong"
  | .accumulator => "Acc"
  | .blockMove => "BlockMove"
  | .dp => "Dp"
  | .dpInd => "DpInd"
  | .dpIndIndexY => "DpIndIndexY"
  | .dpIndIndexYLong => "DpIndIndexYLong"
  | .dpIndLong => "DpIndLong"
  | .dpIndexX => "DpIndexX"
  | .dpIndexXInd => "DpIndexXInd"
  | .dpIndexY => "DpIndexY"
  | .imm => "Imm"
  | .immAccumulator => "ImmLongA"
  | .immIndex => "ImmLongXY"
  | .implied => "Implied"
  | .pcRel => "PcRel"
  | .pcRelLong => "PcRelLong"
  | .stackAbs => "StackAbs"
  | .stackDpInd => "StackDpInd"
  | .stackInt => "StackInt"
  | .stackPcRelLong => "StackPcRelLong"
  | .stackPull => "StackPull"
  | .stackPush => "StackPush"
  | .stackRti => "StackRti"
  | .stackRtl => "StackRtl"
  | .stackRts => "StackRts"
  | .stackRel => "StackRel"
  | .stackRelIndIndexY => "StackRelIndIndexY"
  | .wdm => "Wdm"

/-- The length of an instruction, opcode included. -/
def length (mode : AddressMode) (status : StatusFlags) : Nat :=
  match mode with
  | .undefined | .accumulator | .implied | .stackPull | .stackPush | .stackRti | .stackRtl
  | .stackRts => 1
  | .dp | .dpIndexX | .dpIndexY | .dpIndexXInd | .dpInd | .dpIndLong | .dpIndIndexY
  | .dpIndIndexYLong | .imm | .pcRel | .stackDpInd | .stackInt | .stackRel | .stackRelIndIndexY
  | .wdm => 2
  | .abs | .absIndexX | .absIndexY | .absIndexXInd | .absInd | .absIndLong | .blockMove
  | .pcRelLong | .stackAbs | .stackPcRelLong => 3
  | .absLong | .absIndexXLong => 4
  | .immAccumulator => if status.isShortMemory then 2 else 3
  | .immIndex => if status.isShortIndex then 2 else 3

def isImmediate : AddressMode → Bool
  | .imm | .immAccumulator | .immIndex => true
  | _ => false

/-- The operand names the place itself, not a place that holds its address or the base of an
indexed access. -/
def isDirect : AddressMode → Bool
  | .abs | .absLong | .dp | .pcRel | .pcRelLong | .stackPcRelLong | .stackAbs => true
  | _ => false

/-- The operand names a place in memory that the instruction reads or writes. -/
def accessesMemory : AddressMode → Bool
  | .undefined | .accumulator | .implied | .imm | .immAccumulator | .immIndex | .blockMove
  | .pcRel | .pcRelLong | .stackAbs | .stackInt | .stackPcRelLong | .stackPull | .stackPush
  | .stackRti | .stackRtl | .stackRts | .wdm => false
  | _ => true

end AddressMode

end Disasm65
