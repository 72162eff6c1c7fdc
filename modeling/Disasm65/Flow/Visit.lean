/-
One step of the flow analysis: visiting the instruction at an offset.

A visit marks the bytes of the instruction, works out the status after it, hands that status to
the branch target and to the next instruction, and says where to go on.  An offset that has been
visited is visited again only while its status has changed since.  The first visit also resolves
the operand and asks the plugins about a call; they are asked about a break on every visit.
-/
import Disasm65.Flow.Operand
import Disasm65.Flow.Service

namespace Disasm65.Flow

/-- The analysis under way. -/
structure State (ν σ : Type) where
  attributes : Attributes
  /-- branch targets still to be followed, last one first -/
  pending : List Nat
  panel : List (Plugin ν σ)
  journal : Array ν

namespace State

variable {ν σ : Type}

def info (s : State ν σ) (offset : Nat) : Attribute := s.attributes.info offset

/-- Change the attribute of one byte. -/
def update (s : State ν σ) (offset : Nat) (change : Attribute → Attribute) : State ν σ :=
  { s with attributes := s.attributes.update offset change }

/-- Change the attributes of some bytes. -/
def updateRange (s : State ν σ) (offset length : Nat) (change : Attribute → Attribute) :
    State ν σ :=
  { s with attributes := s.attributes.updateRange offset length change }

/-- Ask the plugins. -/
def poll (setup : Setup) (site : CallSite) (stops : Bool) (s : State ν σ) : Bool × State ν σ :=
  let { attributes, pending, panel, journal } := s
  let polled := Flow.poll setup site stops attributes journal panel
  (polled.stops, ⟨polled.attributes, pending, polled.panel, polled.journal⟩)

end State

/-- A byte that an instruction reaches: it stops being data and loses the format it had as such. -/
def claimByte (a : Attribute) : Attribute :=
  let a :=
    if a.isData || a.isInlineData then
      { (a.unmark .data).unmark .inlineData with format := none }
    else a
  a.mark .instruction

/-- A byte at which an instruction was expected and cannot be. -/
def rejectByte (a : Attribute) : Attribute :=
  ((a.unmark .instructionStart).unmark .instruction).mark .data

/-- The byte can be neither decoded nor branched to. -/
def isBlocked (a : Attribute) : Bool := a.isData || a.isInlineData

/-- The instruction of `length` bytes at `offset` stays in the image and in one region. -/
def staysInRegion (setup : Setup) (attributes : Attributes) (offset length : Nat) : Bool :=
  offset + length ≤ setup.image.size
    && !(List.range' (offset + 1) (length - 1)).any fun i => (attributes.info i).isRegionStart

/-- The nearest PHP before a PLP that has been visited and lies in the search window. -/
def matchingPhp? (setup : Setup) (attributes : Attributes) (offset : Nat) : Option Nat :=
  search (min offset setup.parameters.plpWindow) offset
where
  /-- Look at `count` offsets below `limit`, nearest first. -/
  search : (count limit : Nat) → Option Nat
  | 0, _ => none
  | count + 1, limit =>
    let i := limit - 1
    let a := attributes.info i
    if a.isInstructionStart && a.isVisited && (setup.opcodeAt i).isPhp then some i
    else search count i

/-- The status after the PLP at `offset`.  With a PHP to match it is the status there; without,
nothing is known, but the 65816 keeps its register widths.  The emulation flag is never on the
stack. -/
def pulledStatus (setup : Setup) (attributes : Attributes) (offset : Nat) : StatusFlags :=
  let current := (attributes.info offset).status
  let pushed :=
    if setup.parameters.matchesPlp then
      match matchingPhp? setup attributes offset with
      | some php => (attributes.info php).status
      | none => .indeterminate
    else .indeterminate
  let widths :=
    if pushed = .indeterminate ∧ setup.processor.family = .wide65816 then
      (pushed.set .memory (current.get .memory)).set .index (current.get .index)
    else pushed
  widths.set .emulation (current.get .emulation)

/-- The status after the instruction at `offset`. -/
def statusAfter (setup : Setup) (attributes : Attributes) (offset : Nat) (op : Opcode)
    (status : StatusFlags) : Transition :=
  if op.isPlp then
    let pulled := pulledStatus setup attributes offset
    ⟨pulled, pulled⟩
  else op.transition status setup.image offset

/-- The call site of an instruction that plugins are asked about. -/
def callSite? (setup : Setup) (op : Opcode) (offset : Nat) (status : StatusFlags) :
    Option CallSite :=
  let operand := (op.operand? setup.image offset status).getD 0
  if op.isJsr then some (.jsr offset operand)
  else if op.isJsl then some (.jsl offset operand)
  else if op.isBrk then some (.brk offset (op.mode == .stackInt))
  else none

/-- Ask the plugins about the instruction at `offset`, if it is one they are asked about. -/
def askPlugins (setup : Setup) (op : Opcode) (offset : Nat) (stops : Bool) (s : State ν σ) :
    Bool × State ν σ :=
  match callSite? setup op offset (s.info offset).status with
  | some site => s.poll setup site stops
  | none => (stops, s)

/-- Hand a status to a branch target and put the target on the list, if it has not been visited or
learns something. -/
def followBranch (setup : Setup) (target : Nat) (incoming : StatusFlags) (s : State ν σ) :
    State ν σ :=
  let before := s.info target
  if isBlocked before then s
  else
    let status := setup.arrive target before.status incoming
    let learns := status != before.status
    let s := s.update target fun a =>
      let a := { a.mark .branchTarget with status := status }
      if before.isVisited && learns then a.mark .changed else a
    if (!before.isVisited || learns) && !s.pending.contains target then
      { s with pending := target :: s.pending }
    else s

/-- The first offset from `offset` on, looking at `count` bytes, that is not inline data. -/
def skipInline (attributes : Attributes) : (count offset : Nat) → Nat
  | 0, offset => offset
  | count + 1, offset =>
    if (attributes.info offset).isInlineData then skipInline attributes count (offset + 1)
    else offset

/-- Hand a status to the instruction after the one at `offset` and go on there, if that leads
anywhere. -/
def fallThrough (setup : Setup) (offset length : Nat) (incoming : StatusFlags) (s : State ν σ) :
    State ν σ × Option Nat :=
  let size := setup.image.size
  let next := skipInline s.attributes (size - (offset + length)) (offset + length)
  let before := s.info next
  if size ≤ next || before.isData
      || before.address != wrap32 ((s.info offset).address + (next - offset)) then (s, none)
  else
    let status := setup.arrive next before.status incoming
    let learns := status != before.status
    let settled := before.isVisited && !before.isChanged
    let s := s.update next fun a =>
      let a := { a with status := status }
      if settled && learns then a.mark .changed else a
    (s, if settled && !learns then none else some next)

/-- Follow an instruction that has been decoded.  `first` says that this is the first visit. -/
def execute (setup : Setup) (offset : Nat) (op : Opcode) (length : Nat) (first : Bool)
    (status : StatusFlags) (s : State ν σ) : State ν σ × Option Nat :=
  let s := (s.update offset fun a =>
    { a.mark .instructionStart with instructionLength := length }).updateRange offset length
      claimByte
  let after := statusAfter setup s.attributes offset op status
  let s := if first then s.update offset (resolveOperand setup offset op) else s
  let operand := s.info offset
  let target := if op.isBranchOrCall && operand.operandIsDirect then operand.operandOffset else none
  let verdict := if op.effect = .conditionalBranch then op.verdict? status else none
  let s := s.update offset fun a =>
    let a := if op.isBranchOrCall && target.isNone then a.mark .externalBranch else a
    { a with verdict := verdict.getD a.verdict }
  let s :=
    match if verdict = some .never then none else target with
    | some target => followBranch setup target after.taken s
    | none => s
  let continues := op.effect.fallsThrough && verdict != some .always
  let (continues, s) :=
    if op.isBrk then
      let (stops, s) := askPlugins setup op offset (!continues) s
      (continues || !stops, s)
    else (continues, s)
  let s := s.update offset fun a => a.putMark .noContinue (!continues)
  if (s.info offset).doesNotContinue || setup.image.size ≤ offset + length then (s, none)
  else
    let (stops, s) :=
      if first && (op.isJsr || op.isJsl) then askPlugins setup op offset false s else (false, s)
    if stops then (s.update offset fun a => a.mark .noContinuePlugin, none)
    else fallThrough setup offset length after.next s

/-- Visit the byte at `offset`, and say where to go on, if anywhere.  An instruction that leaves the
image or its region turns out to be data. -/
def visit (setup : Setup) (offset : Nat) (s : State ν σ) : State ν σ × Option Nat :=
  let before := s.info offset
  if setup.image.size ≤ offset || (before.isVisited && !before.isChanged) then (s, none)
  else
    let s := s.update offset fun a => (a.mark .visited).unmark .changed
    if isBlocked before then (s, none)
    else
      let op := setup.opcodeAt offset
      let length := op.length before.status
      if !staysInRegion setup s.attributes offset length then (s.update offset rejectByte, none)
      else if !op.isValid then (s, none)
      else execute setup offset op length (!before.isVisited) before.status s

end Disasm65.Flow
