/-
What the data passes work on: the attributes and the symbol table, which they change, and the
image and what is said about it, which they do not.

A pass may stop at a fault.  The workspace it leaves then holds what had been done before.
-/
import Disasm65.AddressMap
import Disasm65.Cpu.Processor
import Disasm65.Image.Attribute
import Disasm65.Parameters
import Disasm65.Symbol.Table

namespace Disasm65.Data

/-- What the data passes read. -/
structure Survey where
  image : Image
  processor : Processor
  map : AddressMap
  parameters : Parameters
  /-- offsets with a comment; an item starts there -/
  comments : List Nat

/-- What the data passes change. -/
structure Workspace where
  attributes : Attributes
  symbols : SymbolTable

/-- How a pass ends: the workspace, and the fault it stopped at, if any. -/
structure Outcome where
  workspace : Workspace
  fault : Option Fault

namespace Survey

/-- The opcode of the byte at `offset`. -/
def opcodeAt (survey : Survey) (offset : Nat) : Opcode :=
  survey.processor.opcode (survey.image.byteAt offset)

/-- The attributes and the map fit the image. -/
def check (survey : Survey) (attributes : Attributes) : Except Fault Unit :=
  if attributes.size = survey.image.size ∧ survey.map.totalLength = survey.image.size then .ok ()
  else
    .error (.workspaceMismatch attributes.size survey.map.totalLength survey.image.size)

end Survey

namespace Workspace

def info (w : Workspace) (offset : Nat) : Attribute := w.attributes.info offset

/-- Change the attribute of one byte. -/
def update (w : Workspace) (offset : Nat) (change : Attribute → Attribute) : Workspace :=
  { w with attributes := w.attributes.update offset change }

/-- The pass ends well. -/
def done (w : Workspace) : Outcome := ⟨w, none⟩

/-- The pass stops at a fault. -/
def stop (w : Workspace) (fault : Fault) : Outcome := ⟨w, some fault⟩

end Workspace

/-- Go on with the workspace, unless a fault has stopped the pass. -/
def Outcome.andThen (outcome : Outcome) (next : Workspace → Outcome) : Outcome :=
  match outcome.fault with
  | none => next outcome.workspace
  | some _ => outcome

/-- The offset after an item of `length` bytes at `offset`; an item has at least one byte. -/
def stepOver (offset length : Nat) : Except Fault Nat := addWords offset (max length 1)

/-- Enough steps for a walk over `size` bytes: every step moves forward, and the last one sees the
end. -/
def walkFuel (size : Nat) : Nat := size + 1

/-- Go on with a walk where the next step leads. -/
def Workspace.goOn (w : Workspace) (next : Except Fault Nat) (walk : Nat → Workspace → Outcome) :
    Outcome :=
  match next with
  | .ok offset => walk offset w
  | .error fault => w.stop fault

end Disasm65.Data
