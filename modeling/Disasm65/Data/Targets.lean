/-
Labels for operands that refer to the image.

Every instruction whose operand is in the image, and every item that is the address of a byte of
the image, is made to refer to a label.  The label stands at that byte or near it: on a user label
a few bytes away, on the first byte of the instruction or item around it, or on the instruction
that an address less one is meant for.  Where there is no label one is generated.
-/
import Disasm65.Data.Workspace

namespace Disasm65.Data

/-- What generated labels start with. -/
def labelStem : String := "L"

/-- What a byte near a target has to offer. -/
inductive Probe where
  /-- a user label that can stand for the target -/
  | use
  /-- a user label on the other side of a change of addresses -/
  | boundary
  /-- nothing -/
  | skip
deriving DecidableEq

/-- Look for a user label at `probe` that can stand for `target`: the two are as far apart in
addresses as in offsets. -/
def probeLabel (attributes : Attributes) (target probe : Nat) : Probe :=
  match (attributes.info probe).symbol with
  | some symbol =>
    if symbol.origin = .user then
      if ((attributes.info target).address : Int) - (attributes.info probe).address
          = (target : Int) - probe then .use
      else .boundary
    else .skip
  | none => .skip

/-- The first of some places that has a usable label, searching no further than a boundary. -/
def firstLabel? (attributes : Attributes) (target : Nat) : List Nat → Option Nat
  | [] => none
  | probe :: others =>
    match probeLabel attributes target probe with
    | .use => some probe
    | .boundary => none
    | .skip => firstLabel? attributes target others

/-- Up to three bytes back, nearest first. -/
def placesBack (target : Nat) : List Nat :=
  [1, 2, 3].filterMap fun distance => if distance ≤ target then some (target - distance) else none

/-- One byte forward. -/
def placesForward (size target : Nat) : List Nat := if target + 1 < size then [target + 1] else []

/-- The start of the instruction around `offset`, or the first byte of the image. -/
def instructionStart (attributes : Attributes) : (offset : Nat) → Nat
  | 0 => 0
  | n + 1 =>
    if (attributes.info (n + 1)).isInstructionStart then n + 1
    else instructionStart attributes n

/-- The instruction an address less one is meant for: the next byte, if an instruction starts there
and none at the target. -/
def nextInstruction (attributes : Attributes) (target : Nat) : Nat :=
  if !(attributes.info target).isInstructionStart && target + 1 < attributes.size
      && (attributes.info (target + 1)).isInstructionStart then target + 1
  else target

/-- Where an access to the bytes of an instruction is meant to go: to data right after it, as when
a table is indexed from below, or else to the instruction itself. -/
def accessedInCode (attributes : Attributes) (target : Nat) : Nat :=
  let isNearbyData (i : Nat) : Bool := i < attributes.size && !(attributes.info i).isInstruction
  match [target + 1, target + 2].find? isNearbyData with
  | some nearby => nearby
  | none =>
    if (attributes.info target).isInstructionStart then target
    else instructionStart attributes target

/-- A better place than `target` for the label that the operand at `source` needs. -/
def alternateTarget (survey : Survey) (attributes : Attributes) (source target : Nat) : Nat :=
  if !(attributes.info target).isInstruction then
    ((firstLabel? attributes target (placesBack target)).or
      (firstLabel? attributes target (placesForward attributes.size target))).getD target
  else if !(attributes.info source).isInstructionStart then nextInstruction attributes target
  else
    let op := survey.opcodeAt source
    if op.isBranchOrCall then target
    else if op.isPea || op.isPer then nextInstruction attributes target
    else accessedInCode attributes target

/-- The first byte of the item around `target`, if there is one. -/
def itemStart (attributes : Attributes) (target : Nat) : Nat :=
  match attributes.findBelow? (·.format.isSome) target with
  | some start =>
    let length := ((attributes.info start).format.map (·.length)).getD 0
    if target < start + length then start else target
  | none => target

/-- A label stands on the first byte of an instruction or item. -/
def alignTarget (attributes : Attributes) (target : Nat) : Nat :=
  let a := attributes.info target
  if a.isInstruction then
    if a.isInstructionStart then target else instructionStart attributes target
  else if a.isStart then target
  else itemStart attributes target

/-- Where the label of a reference from `source` to `target` stands.  A label at the target itself
is never passed over. -/
def labelPlace (survey : Survey) (attributes : Attributes) (source target : Nat) : Nat :=
  if (attributes.info target).symbol.isSome then target
  else
    alignTarget attributes <|
      if survey.parameters.seeksNearby then alternateTarget survey attributes source target
      else target

/-- The sum that tells whether the item before `target` holds it. -/
def checkItem (attributes : Attributes) (target : Nat) : Except Fault Nat :=
  match attributes.findBelow? (·.format.isSome) target with
  | some start => addWords start (((attributes.info start).format.map (·.length)).getD 0)
  | none => .ok target

/-- Find where the label of a reference stands.  An item that is asked whether it holds the target
must end at a word. -/
def findPlace (survey : Survey) (attributes : Attributes) (source target : Nat) :
    Except Fault Nat :=
  let aim :=
    if survey.parameters.seeksNearby then alternateTarget survey attributes source target
    else target
  let a := attributes.info aim
  if (attributes.info target).symbol.isSome || a.isInstruction || a.isStart then
    .ok (labelPlace survey attributes source target)
  else (checkItem attributes aim).map fun _ => labelPlace survey attributes source target

/-- The label at `place`, generated if there is none yet. -/
def ensureLabel (w : Workspace) (place : Nat) : Except Fault (String × Workspace) :=
  match (w.info place).symbol with
  | some symbol => .ok (symbol.label, w)
  | none =>
    match w.symbols.generate (w.info place).address labelStem with
    | .error fault => .error fault
    | .ok symbol =>
      match w.symbols.add (.label symbol) with
      | .error fault => .error fault
      | .ok symbols =>
        .ok (symbol.label,
          { attributes := w.attributes.update place fun a => { a with symbol := some symbol }
            symbols })

/-- The byte has a format with the high byte first. -/
def isBigEndian (a : Attribute) : Bool :=
  match a.format with
  | some format => format.kind == .bigEndian
  | none => false

/-- Make the `length` bytes at `source` refer to a label at or near `target`. -/
def referTo (survey : Survey) (source length target : Nat) (w : Workspace) : Outcome :=
  match (findPlace survey w.attributes source target).bind (ensureLabel w) with
  | .error fault => w.stop fault
  | .ok (label, w) =>
    match Format.reference length ⟨label, .low⟩ (isBigEndian (w.info source)) with
    | .error fault => w.stop fault
    | .ok format => (w.update source fun a => { a with format := some format }).done

/-- The offset that the address item at `offset` refers to.  A short address is in the bank of the
item. -/
def itemTarget? (survey : Survey) (offset : Nat) (a : Attribute) (format : Format) : Option Nat :=
  if format.isNumeric && format.detail == .address then
    let order := if format.kind = .bigEndian then .highFirst else .lowFirst
    let value := survey.image.readWord offset format.length order
    let address := if format.length < 3 then bankOf a.address + value else value
    survey.map.offsetOf? offset address
  else none

/-- Make what is at `offset` refer to a label, if it refers to the image, and say how long it is.
Instructions are passed over byte by byte, since one can be inside another. -/
def resolveAt (survey : Survey) (offset : Nat) (w : Workspace) : Outcome × Nat :=
  let a := w.info offset
  if a.isInstructionStart then
    match a.format, a.operandOffset with
    | none, some target => (referTo survey offset a.instructionLength target w, 1)
    | _, _ => (w.done, 1)
  else
    match a.format with
    | none => (w.done, 1)
    | some format =>
      match itemTarget? survey offset a format with
      | some target => (referTo survey offset format.length target w, format.length)
      | none => (w.done, format.length)

/-- Resolve what is at `offset` and after it. -/
def resolveFrom (survey : Survey) : (fuel offset : Nat) → Workspace → Outcome
  | 0, _, w => w.stop .outOfSteps
  | fuel + 1, offset, w =>
    if offset < w.attributes.size then
      let (outcome, length) := resolveAt survey offset w
      outcome.andThen fun w => w.goOn (stepOver offset length) (resolveFrom survey fuel)
    else w.done

/-- Make every operand and address item that refers to the image refer to a label. -/
def resolveTargets (survey : Survey) (w : Workspace) : Outcome :=
  resolveFrom survey (walkFuel w.attributes.size) 0 w

end Disasm65.Data
