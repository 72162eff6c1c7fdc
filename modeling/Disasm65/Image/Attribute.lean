/-
What is known about each byte of the image.

A byte has a set of marks, an address, and what the analysis has learnt about the instruction or
item that starts there.  The attributes of an image are an array with one entry per byte; an
offset past the end reads as a blank attribute and cannot be changed.
-/
import Disasm65.Cpu.Opcode
import Disasm65.Format.Basic
import Disasm65.Symbol.Basic

namespace Disasm65

/-- The user's word on what a byte is. -/
inductive Hint where
  | unset
  | code
  | data
  | inlineData
deriving DecidableEq

namespace Hint

/-- Every hint. -/
def all : List Hint := [.unset, .code, .data, .inlineData]

def name : Hint → String
  | .unset => "None"
  | .code => "Code"
  | .data => "Data"
  | .inlineData => "InlineData"

/-- The hint with the given name. -/
def ofName (text : String) : Except Fault Hint := byName "type hint" all name text

end Hint

/-- The marks a byte can carry. -/
inductive Mark where
  /-- first byte of an instruction -/
  | instructionStart
  /-- part of an instruction -/
  | instruction
  /-- data among instructions -/
  | inlineData
  | data
  /-- the analysis started here -/
  | entryPoint
  | branchTarget
  /-- a branch or call that leaves the image -/
  | externalBranch
  | visited
  /-- the status has changed since the last visit -/
  | changed
  /-- a hint has classified the byte -/
  | hinted
  /-- the next instruction does not follow -/
  | noContinue
  /-- a plugin has said that the call does not return -/
  | noContinuePlugin
  /-- first byte of a region -/
  | regionStart
deriving DecidableEq

namespace Mark

/-- Every mark, by position. -/
def all : List Mark :=
  [.instructionStart, .instruction, .inlineData, .data, .entryPoint, .branchTarget,
   .externalBranch, .visited, .changed, .hinted, .noContinue, .noContinuePlugin, .regionStart]

/-- The position of a mark in the set. -/
def position : Mark → Nat
  | .instructionStart => 0
  | .instruction => 1
  | .inlineData => 2
  | .data => 3
  | .entryPoint => 4
  | .branchTarget => 5
  | .externalBranch => 6
  | .visited => 7
  | .changed => 8
  | .hinted => 9
  | .noContinue => 10
  | .noContinuePlugin => 11
  | .regionStart => 12

/-- The name of a mark in persisted text. -/
def name : Mark → String
  | .instructionStart => "INSTR_START"
  | .instruction => "INSTRUCTION"
  | .inlineData => "INLINE_DATA"
  | .data => "DATA"
  | .entryPoint => "ENTRY_POINT"
  | .branchTarget => "BRANCH_TARGET"
  | .externalBranch => "EXTERNAL_BRANCH"
  | .visited => "VISITED"
  | .changed => "CHANGED"
  | .hinted => "HINTED"
  | .noContinue => "NO_CONTINUE"
  | .noContinuePlugin => "NO_CONTINUE_SCRIPT"
  | .regionStart => "ADDR_REGION_CHANGE"

end Mark

/-- A set of marks, as a word with a bit for each. -/
structure Marks where
  bits : BitVec 16
deriving DecidableEq

namespace Marks

def empty : Marks := ⟨0#16⟩

def has (marks : Marks) (mark : Mark) : Bool := marks.bits.getLsbD mark.position

def insert (marks : Marks) (mark : Mark) : Marks :=
  ⟨marks.bits ||| BitVec.twoPow 16 mark.position⟩

def erase (marks : Marks) (mark : Mark) : Marks :=
  ⟨marks.bits &&& ~~~ BitVec.twoPow 16 mark.position⟩

/-- Switch one mark on or off. -/
def put (marks : Marks) (mark : Mark) (on : Bool) : Marks :=
  if on then marks.insert mark else marks.erase mark

/-- The marks of either set. -/
def union (marks other : Marks) : Marks := ⟨marks.bits ||| other.bits⟩

end Marks

/-- What is known about one byte. -/
structure Attribute where
  marks : Marks
  address : Nat
  /-- the length of the instruction that starts here -/
  instructionLength : Nat
  /-- the status before the instruction that starts here -/
  status : StatusFlags
  verdict : Verdict
  /-- the address the operand refers to -/
  operandAddress : Option Nat
  /-- its offset, when it is in the image -/
  operandOffset : Option Nat
  /-- the operand names that place itself -/
  operandIsDirect : Bool
  symbol : Option Symbol
  format : Option Format
deriving DecidableEq

namespace Attribute

/-- Nothing is known. -/
def blank : Attribute where
  marks := .empty
  address := 0
  instructionLength := 0
  status := .unspecified
  verdict := .indeterminate
  operandAddress := none
  operandOffset := none
  operandIsDirect := false
  symbol := none
  format := none

def isInstructionStart (a : Attribute) : Bool := a.marks.has .instructionStart

def isInstruction (a : Attribute) : Bool := a.marks.has .instruction

def isInlineData (a : Attribute) : Bool := a.marks.has .inlineData

def isData (a : Attribute) : Bool := a.marks.has .data

def isEntryPoint (a : Attribute) : Bool := a.marks.has .entryPoint

def isBranchTarget (a : Attribute) : Bool := a.marks.has .branchTarget

def isExternalBranch (a : Attribute) : Bool := a.marks.has .externalBranch

def isVisited (a : Attribute) : Bool := a.marks.has .visited

def isChanged (a : Attribute) : Bool := a.marks.has .changed

def isHinted (a : Attribute) : Bool := a.marks.has .hinted

def isRegionStart (a : Attribute) : Bool := a.marks.has .regionStart

/-- The next instruction does not follow, for either reason. -/
def doesNotContinue (a : Attribute) : Bool :=
  a.marks.has .noContinue || a.marks.has .noContinuePlugin

/-- A conditional branch that is never taken. -/
def doesNotBranch (a : Attribute) : Bool := a.verdict == .never

def isDataStart (a : Attribute) : Bool := a.isData && a.format.isSome

def isInlineDataStart (a : Attribute) : Bool := a.isInlineData && a.format.isSome

/-- First byte of an instruction or item. -/
def isStart (a : Attribute) : Bool :=
  a.isInstructionStart || a.isDataStart || a.isInlineDataStart

/-- Claimed by nothing. -/
def isUntyped (a : Attribute) : Bool := !a.isInstruction && !a.isData && !a.isInlineData

/-- The length of what starts here.  An item has the length of its format and none without. -/
def length (a : Attribute) : Nat :=
  if a.isData || a.isInlineData then
    match a.format with
    | some format => format.length
    | none => 0
  else a.instructionLength

def isInstructionWithOperand (a : Attribute) : Bool := a.isInstructionStart && a.length != 1

/-- Five characters for listings: entry point, hint, branch never taken, no next instruction,
branch target. -/
def markText (a : Attribute) : String :=
  let mark (on : Bool) (c : Char) : Char := if on then c else '.'
  String.ofList
    [mark a.isEntryPoint '@', mark a.isHinted 'H', mark a.doesNotBranch '!',
     mark a.doesNotContinue '#', mark a.isBranchTarget '>']

/-- What the byte is, and the length of what starts there. -/
def text (a : Attribute) : String :=
  (if a.isInstruction then "Inst" else if a.isData then "Data"
    else if a.isInlineData then "Inli" else "")
    ++ (if a.isStart then "Start" else "") ++ " len=" ++ Nat.repr a.length

/-- Switch a mark on. -/
def mark (a : Attribute) (m : Mark) : Attribute := { a with marks := a.marks.insert m }

/-- Switch a mark off. -/
def unmark (a : Attribute) (m : Mark) : Attribute := { a with marks := a.marks.erase m }

/-- Switch a mark on or off. -/
def putMark (a : Attribute) (m : Mark) (on : Bool) : Attribute :=
  { a with marks := a.marks.put m on }

end Attribute

/-- The attributes of the bytes of an image. -/
abbrev Attributes := Array Attribute

namespace Attributes

/-- Attributes of `size` bytes about which nothing is known. -/
def blank (size : Nat) : Attributes := Array.replicate size .blank

/-- The attribute of a byte. -/
def info (attributes : Attributes) (offset : Nat) : Attribute := attributes.getD offset .blank

/-- Change the attribute of a byte. -/
def update (attributes : Attributes) (offset : Nat) (change : Attribute → Attribute) :
    Attributes :=
  attributes.modify offset change

/-- Change the attributes of `length` bytes from `offset` on. -/
def updateRange (attributes : Attributes) (offset length : Nat)
    (change : Attribute → Attribute) : Attributes :=
  (List.range' offset length).foldl (fun attributes i => attributes.update i change) attributes

/-- The nearest offset below `offset` whose attribute has the property. -/
def findBelow? (attributes : Attributes) (p : Attribute → Bool) : (offset : Nat) → Option Nat
  | 0 => none
  | n + 1 => if p (attributes.info n) then some n else attributes.findBelow? p n

/-- One line for each instruction or item, from the first byte on. -/
def listingFrom (attributes : Attributes) : (fuel offset : Nat) → List String
  | 0, _ => []
  | fuel + 1, offset =>
    if offset < attributes.size then
      let a := attributes.info offset
      let line := hex 6 offset ++ " " ++ a.markText ++ " " ++ a.text
        ++ (match a.format with
            | some format => " " ++ format.text
            | none => "")
        ++ (match a.symbol with
            | some symbol => " " ++ symbol.text
            | none => "")
      line :: attributes.listingFrom fuel (offset + max a.length 1)
    else []

/-- One line for each instruction or item. -/
def listing (attributes : Attributes) : List String :=
  attributes.listingFrom attributes.size 0

end Attributes

end Disasm65
