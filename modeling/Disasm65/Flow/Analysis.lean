/-
The flow analysis: following control from every entry point.

The bytes hinted as code are taken from left to right.  One that has not been visited when its
turn comes is an entry point: control is followed from there, and then from the branch targets on
the list, last one first, until none is left.

Every visit either is the first one of its offset or uses up a change of that offset's status.
What is known about a status only grows, so an offset is visited a bounded number of times and
`fuel` steps suffice for any image, whatever the plugins do.

When no more control can be followed, bytes of an instruction that nothing has decoded as such
(they were hinted as code, or another instruction has taken their place) are inline data.
-/
import Disasm65.Flow.Visit

namespace Disasm65.Flow

variable {ν σ : Type}

/-- Follow control from an offset, and then from every branch target on the list. -/
def drain (setup : Setup) : (fuel : Nat) → Option Nat → State ν σ → State ν σ
  | 0, _, s => s
  | fuel + 1, some offset, s =>
    let (s, next) := visit setup offset s
    drain setup fuel next s
  | fuel + 1, none, s =>
    match s.pending with
    | [] => s
    | target :: rest => drain setup fuel (some target) { s with pending := rest }

/-- Enough steps for an image of `size` bytes. -/
def fuel (size : Nat) : Nat := 128 * (size + 1)

/-- The byte is to be taken as an entry point. -/
def isEntry (setup : Setup) (s : State ν σ) (offset : Nat) : Bool :=
  let a := s.info offset
  setup.hintAt offset = .code && a.isHinted && !a.isVisited && !isBlocked a

/-- Mark an entry point and give it the status at entry points. -/
def enter (setup : Setup) (offset : Nat) (s : State ν σ) : State ν σ :=
  s.update offset fun a =>
    { a.mark .entryPoint with status := setup.entryStatus.apply (setup.overrideAt offset) }

/-- Follow control from `offset` if it is an entry point. -/
def tryEntry (setup : Setup) (s : State ν σ) (offset : Nat) : State ν σ :=
  if isEntry setup s offset then
    drain setup (fuel setup.image.size) (some offset) (enter setup offset s)
  else s

/-- Follow control from every entry point. -/
def followAll (setup : Setup) (s : State ν σ) : State ν σ :=
  (List.range setup.image.size).foldl (tryEntry setup) s

/-- A byte that belongs to no decoded instruction stops being code. -/
def settleByte (a : Attribute) : Attribute :=
  if a.isInstruction then
    if isBlocked a then a.unmark .instruction
    else { (a.unmark .instruction).mark .inlineData with format := some .oneByteNumber }
  else a

/-- Settle the next byte.  `cover` is the number of bytes from here on that belong to the nearest
instruction before. -/
def settleNext (done : Attributes × Nat) (a : Attribute) : Attributes × Nat :=
  let (attributes, cover) := done
  if a.isInstructionStart then (attributes.push a, a.instructionLength - 1)
  else if 0 < cover then (attributes.push a, cover - 1)
  else (attributes.push (settleByte a), 0)

/-- Settle all bytes. -/
def settle (attributes : Attributes) : Attributes := (attributes.foldl settleNext (#[], 0)).1

/-- Analyse the flow of control.  `attributes` has a blank entry for every byte. -/
def analyze (setup : Setup) (panel : List (Plugin ν σ)) (attributes : Attributes) :
    Except Fault (State ν σ) :=
  match setup.check attributes with
  | .error fault => .error fault
  | .ok () =>
    let s := followAll setup ⟨setup.prepare attributes, [], panel, #[]⟩
    .ok { s with attributes := settle s.attributes }

end Disasm65.Flow
