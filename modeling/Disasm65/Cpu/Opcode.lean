/-
Opcodes: what one instruction does to the flow of control, to memory and to the status.

An opcode's effect on the status is one of a few rules (`FlagRule`).  The rules follow the flags
only where the instruction fixes them: an instruction that computes something unknown leaves the
flags it writes indeterminate, a branch tells each of its two ways what the tested flag was.
-/
import Disasm65.Cpu.AddressMode
import Disasm65.Cpu.Mnemonic
import Disasm65.Image.Bytes

namespace Disasm65

/-- Where control goes after an instruction. -/
inductive FlowEffect where
  /-- to the next instruction -/
  | next
  /-- nowhere that can be followed -/
  | stop
  /-- to the target -/
  | branch
  /-- to the target or to the next instruction -/
  | conditionalBranch
  /-- to the target and, on return, to the next instruction -/
  | call
deriving DecidableEq

def FlowEffect.name : FlowEffect → String
  | .next => "Cont"
  | .stop => "NoCont"
  | .branch => "Branch"
  | .conditionalBranch => "ConditionalBranch"
  | .call => "CallSubroutine"

/-- The next instruction can follow. -/
def FlowEffect.fallsThrough : FlowEffect → Bool
  | .next | .call | .conditionalBranch => true
  | .stop | .branch => false

/-- What an instruction does to the memory its operand names. -/
inductive MemoryEffect where
  | untouched
  | read
  | write
  | modify
deriving DecidableEq

def MemoryEffect.name : MemoryEffect → String
  | .untouched => "None"
  | .read => "Read"
  | .write => "Write"
  | .modify => "ReadModifyWrite"

/-- Whether a conditional branch is taken, as far as the status tells. -/
inductive Verdict where
  | indeterminate
  | never
  | always
deriving DecidableEq

def Verdict.all : List Verdict := [.indeterminate, .never, .always]

def Verdict.name : Verdict → String
  | .indeterminate => "Indeterminate"
  | .never => "Never"
  | .always => "Always"

/-- How an instruction changes the status. -/
inductive FlagRule where
  /-- nothing changes -/
  | keep
  /-- the listed flags are written with unknown values -/
  | forget (flags : List Flag)
  /-- zero and negative follow an immediate operand -/
  | loadImmediate
  /-- zero and negative follow the conjunction with an immediate operand -/
  | andImmediate
  /-- zero and negative follow the disjunction with an immediate operand -/
  | orImmediate
  | rotateLeft
  | rotateRight
  /-- the whole status register comes from the stack -/
  | pull
  /-- the flags selected by an immediate operand become zero -/
  | clearSelected
  /-- the flags selected by an immediate operand become one -/
  | setSelected
  /-- carry and emulation change places -/
  | exchangeEmulation
  /-- one flag gets a fixed value -/
  | force (flag : Flag) (value : Bool)
  /-- a branch taken when the flag has the value -/
  | test (flag : Flag) (value : Bool)
deriving DecidableEq

/-- The status after an instruction. -/
structure Transition where
  /-- at the next instruction -/
  next : StatusFlags
  /-- at the target of a branch that is taken or of a call -/
  taken : StatusFlags
deriving DecidableEq

/-- An immediate operand and its width. -/
structure Immediate where
  value : Nat
  wide : Bool
deriving DecidableEq

/-- The top bit of the operand at its width. -/
def Immediate.isNegative (immediate : Immediate) : Bool :=
  immediate.value.testBit (if immediate.wide then 15 else 7)

/-- One opcode of one processor. -/
structure Opcode where
  code : UInt8
  mnemonic : Mnemonic
  mode : AddressMode
  effect : FlowEffect
  rule : FlagRule
  undocumented : Bool
deriving DecidableEq

namespace Opcode

/-- What stands for an opcode the processor does not define. -/
def invalid (code : UInt8) : Opcode := ⟨code, .undefined, .undefined, .next, .keep, false⟩

def isValid (op : Opcode) : Bool := op.mode != .undefined

/-- The length of the instruction. -/
def length (op : Opcode) (status : StatusFlags) : Nat := op.mode.length status

/-- The operand that follows the opcode at `offset`, low byte first, when the instruction has one
and all of it is in the image. -/
def operand? (op : Opcode) (image : Image) (offset : Nat) (status : StatusFlags) : Option Nat :=
  let length := op.length status
  if length < 2 then none
  else (image.slice? offset length).map fun bytes => littleEndian bytes.tail

/-- The operand of an immediate instruction. -/
def immediate? (op : Opcode) (image : Image) (offset : Nat) (status : StatusFlags) :
    Option Immediate :=
  if op.mode.isImmediate then
    (op.operand? image offset status).map fun value =>
      ⟨value % 0x10000, op.length status == 3⟩
  else none

/-- The operand at an offset that need not be in the image. -/
def fetchOperand (op : Opcode) (image : Image) (offset : Nat) (status : StatusFlags) :
    Except Fault (Option Nat) :=
  if op.length status < 2 then .ok none
  else (addWords offset (op.length status)).map fun _ => op.operand? image offset status

/-- The immediate operand at an offset that need not be in the image. -/
def fetchImmediate (op : Opcode) (image : Image) (offset : Nat) (status : StatusFlags) :
    Except Fault (Option Immediate) :=
  if op.mode.isImmediate then
    (op.fetchOperand image offset status).map fun _ => op.immediate? image offset status
  else .ok none

def isBranchOrCall (op : Opcode) : Bool :=
  match op.effect with
  | .branch | .conditionalBranch | .call => true
  | .next | .stop => false

def isCall (op : Opcode) : Bool := op.effect == .call

def isPhp (op : Opcode) : Bool := op.code == 0x08 && op.mode == .stackPush

def isPlp (op : Opcode) : Bool := op.code == 0x28 && op.mode == .stackPull

def isBrk (op : Opcode) : Bool := op.code == 0x00 && op.isValid

def isJsr (op : Opcode) : Bool := op.code == 0x20 && op.mode == .abs

def isJsl (op : Opcode) : Bool := op.code == 0x22 && op.mode == .absLong

def isPea (op : Opcode) : Bool := op.code == 0xf4 && op.mode == .stackAbs

def isPer (op : Opcode) : Bool := op.code == 0x62 && op.mode == .stackPcRelLong

/-- What the instruction does to the memory its operand names. -/
def memoryEffect (op : Opcode) : MemoryEffect :=
  if op.isBranchOrCall || op.effect == .stop || !op.mode.accessesMemory then .untouched
  else
    match op.mnemonic with
    | .sta | .stx | .sty | .stz | .sax | .sha | .shx | .shy | .tas => .write
    | .asl | .lsr | .rol | .ror | .inc | .dec | .tsb | .trb | .dcp | .isc | .slo | .sre | .rla
    | .rra => .modify
    | .nop | .dop | .top => .untouched
    | _ => .read

/-- Whether the branch is taken under `status`; `none` unless the opcode is a conditional
branch. -/
def verdict? (op : Opcode) (status : StatusFlags) : Option Verdict :=
  match op.rule with
  | .test flag value =>
    match status.get flag with
    | .zero => some (if value then .never else .always)
    | .one => some (if value then .always else .never)
    | .unspecified | .indeterminate => some .indeterminate
  | _ => none

/-- The status at the next instruction. -/
def nextStatus (op : Opcode) (status : StatusFlags) (immediate : Option Immediate) : StatusFlags :=
  match op.rule with
  | .keep => status
  | .forget flags => status.setAll flags .indeterminate
  | .loadImmediate =>
    match immediate with
    | some operand =>
      (status.set .zero (.ofBool (operand.value == 0))).set .negative (.ofBool operand.isNegative)
    | none => status.setAll [.negative, .zero] .indeterminate
  | .andImmediate =>
    match immediate with
    | some operand =>
      let status := if operand.value == 0 then status.set .zero .one else status
      if operand.isNegative then status else status.set .negative .zero
    | none => status
  | .orImmediate =>
    match immediate with
    | some operand =>
      let status := if operand.value == 0 then status else status.set .zero .zero
      if operand.isNegative then status.set .negative .one else status
    | none => status
  | .rotateLeft =>
    let shifted := status.set .carry (status.get .negative)
    if status.get .carry == .one then (shifted.set .zero .zero).set .negative .indeterminate
    else shifted.setAll [.negative, .zero] .indeterminate
  | .rotateRight =>
    match status.get .carry with
    | .one => ((status.set .zero .zero).set .negative .one).set .carry .indeterminate
    | .zero => (status.set .negative .zero).setAll [.zero, .carry] .indeterminate
    | .unspecified | .indeterminate => status.setAll [.negative, .zero, .carry] .indeterminate
  | .pull => status.setAll Flag.register .indeterminate
  | .clearSelected => status.setAll (selected immediate) .zero
  | .setSelected => status.setAll (selected immediate) .one
  | .exchangeEmulation =>
    -- The emulation flag ends up known: a carry that is not known to be clear returns to emulation.
    ((status.set .emulation (.ofBool (status.get .carry != .zero))).setAll [.index, .memory] .one).set
      .carry (status.get .emulation)
  | .force flag value => status.set flag (.ofBool value)
  | .test flag value => status.set flag (.ofBool (!value))
where
  /-- The register flags whose bits are set in the operand. -/
  selected (immediate : Option Immediate) : List Flag :=
    let bits := (immediate.map (·.value)).getD 0
    Flag.register.filter fun flag => bits.testBit flag.position

/-- The status at the target of a taken branch or of a call: what it was before, but for the flag a
branch has tested. -/
def takenStatus (op : Opcode) (status : StatusFlags) : StatusFlags :=
  match op.rule with
  | .test flag value => status.set flag (.ofBool value)
  | _ => status

/-- The status after the instruction at `offset`. -/
def transition (op : Opcode) (status : StatusFlags) (image : Image) (offset : Nat) : Transition :=
  ⟨op.nextStatus status (op.immediate? image offset status), op.takenStatus status⟩

/-- The opcode, its name and its mode. -/
def text (op : Opcode) : String :=
  dollarHex 2 op.code.toNat ++ " " ++ op.mnemonic.name ++ " " ++ op.mode.name
    ++ (if op.undocumented then " (undoc)" else "")

end Opcode

end Disasm65
