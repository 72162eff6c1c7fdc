/-
The processor status as far as it is known.

Nine flags are followed, each in one of the four states of `BitState`.  The packed form keeps the
"could be zero" marks in the low half of a 32-bit word and the "could be one" marks in the high
half; a word with a mark for anything but the nine flags is refused.
-/
import Disasm65.Fault
import Disasm65.Status.TriState

namespace Disasm65

/-- The flags of the processor status. -/
inductive Flag where
  | carry
  | zero
  | interrupt
  | decimal
  /-- width of the index registers in native mode -/
  | index
  /-- width of the accumulator and of memory accesses in native mode -/
  | memory
  | overflow
  | negative
  /-- emulation mode, on the processors that have one -/
  | emulation
deriving DecidableEq

namespace Flag

/-- Every flag, by position. -/
def all : List Flag :=
  [.carry, .zero, .interrupt, .decimal, .index, .memory, .overflow, .negative, .emulation]

/-- The flags held in the status register itself, by position. -/
def register : List Flag :=
  [.carry, .zero, .interrupt, .decimal, .index, .memory, .overflow, .negative]

/-- The position of a flag. -/
def position : Flag → Nat
  | .carry => 0
  | .zero => 1
  | .interrupt => 2
  | .decimal => 3
  | .index => 4
  | .memory => 5
  | .overflow => 6
  | .negative => 7
  | .emulation => 8

def letter : Flag → Char
  | .carry => 'C'
  | .zero => 'Z'
  | .interrupt => 'I'
  | .decimal => 'D'
  | .index => 'X'
  | .memory => 'M'
  | .overflow => 'V'
  | .negative => 'N'
  | .emulation => 'E'

/-- The flag with the given one-letter name. -/
def ofName? (text : String) : Option Flag := all.find? fun flag => flag.letter.toString == text

end Flag

/-- What is known about the nine flags. -/
structure StatusFlags where
  bits : TriState 9
deriving DecidableEq

namespace StatusFlags

/-- Nothing specified. -/
def unspecified : StatusFlags := ⟨.unspecified⟩

/-- Every flag indeterminate. -/
def indeterminate : StatusFlags := ⟨.indeterminate⟩

instance : Inhabited StatusFlags := ⟨unspecified⟩

/-- What is known about one flag. -/
def get (status : StatusFlags) (flag : Flag) : BitState := status.bits.get flag.position

/-- Give one flag a state. -/
def set (status : StatusFlags) (flag : Flag) (state : BitState) : StatusFlags :=
  ⟨status.bits.set flag.position state⟩

/-- Give every listed flag one state. -/
def setAll (status : StatusFlags) (flags : List Flag) (state : BitState) : StatusFlags :=
  flags.foldl (fun status flag => status.set flag state) status

/-- What holds when control may come from either side. -/
def merge (status other : StatusFlags) : StatusFlags := ⟨status.bits.merge other.bits⟩

/-- Replace every flag that `overrides` specifies. -/
def apply (status overrides : StatusFlags) : StatusFlags := ⟨status.bits.apply overrides.bits⟩

/-- The status assumed at an entry point when nothing else is said: emulation mode with eight-bit
registers. -/
def atEntry : StatusFlags :=
  unspecified.setAll [.emulation, .memory, .index] .one

/-- The processor is known to be in emulation mode. -/
def isEmulation (status : StatusFlags) : Bool := status.get .emulation == .one

/-- The accumulator and memory accesses are taken to be eight bits wide. -/
def isShortMemory (status : StatusFlags) : Bool :=
  status.isEmulation || status.get .memory != .zero

/-- The index registers are taken to be eight bits wide. -/
def isShortIndex (status : StatusFlags) : Bool :=
  status.isEmulation || status.get .index != .zero

/-- Both words of marks in one: "could be zero" low, "could be one" high. -/
def pack (status : StatusFlags) : Nat :=
  status.bits.zero.toNat + status.bits.one.toNat * 0x10000

/-- Read the packed form. -/
def unpack (value : Nat) : Except Fault StatusFlags :=
  let low := value % 0x10000
  let high := value / 0x10000
  if low < 0x200 ∧ high < 0x200 then .ok ⟨⟨BitVec.ofNat 9 low, BitVec.ofNat 9 high⟩⟩
  else .error (.undefinedStatusBits value)

/-- One character for a flag: its letter, in lower case when it is zero, `-` when it is
unspecified and `?` when it is indeterminate. -/
def flagChar (status : StatusFlags) (flag : Flag) : Char :=
  match status.get flag with
  | .unspecified => '-'
  | .indeterminate => '?'
  | .zero => flag.letter.toLower
  | .one => flag.letter

/-- The flags in register order, with the width flags and the emulation flag. -/
def text (status : StatusFlags) : String :=
  String.ofList
    ([Flag.negative, .overflow, .memory, .index, .decimal, .interrupt, .zero, .carry].map
        status.flagChar
      ++ [' ', status.flagChar .emulation])

/-- The flags in register order, without the width flags and the emulation flag. -/
def shortText (status : StatusFlags) : String :=
  String.ofList
    ([Flag.negative, .overflow, .decimal, .interrupt, .zero, .carry].map status.flagChar)

end StatusFlags

end Disasm65
